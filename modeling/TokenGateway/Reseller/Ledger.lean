import TokenGateway.Billing.Balance

namespace TokenGateway.Reseller

open Base Billing

/-!
# The reseller ledger

`model/reseller_ledger.go`: the immutable billing facts of personal-priced requests.  A fact
moves its request to a new state, publishes the change as an event for the request's agent
and leaves a receipt, all in the transaction that moves the money.

* `personalBillingReplayTx` — was this operation applied before;
* `applyPersonalBillingFactTx` — apply a fact, once;
* `nextRequest` — the state machine of a request;
* `markPersonalRequestDispatched` — the one transition without a fact;
* `validatePersonalFundingTx`, `recordPersonalFundingTx` — who pays.
-/

/-! ### Replay -/

variable {db : Database} {fact : PersonalBillingFact}

/-- `PersonalBillingReplayTx`: a receipt of the same operation has to carry the same fact. -/
def personalBillingReplayTx (db : Database) : Option PersonalBillingFact → Except BillingError Bool
  | none => .ok false
  | some fact =>
      match db.receipts.get? fact.operationId with
      | none => .ok false
      | some receipt => if receipt.fact ≠ fact then .error .resellerConflict else .ok true

theorem personalBillingReplayTx_ok {replay : Bool}
    (h : personalBillingReplayTx db (some fact) = .ok replay) :
    (replay = false ∧ db.receipts.get? fact.operationId = none) ∨
      (replay = true ∧ ∃ receipt, db.receipts.get? fact.operationId = some receipt ∧
        receipt.fact = fact) := by
  cases hr : db.receipts.get? fact.operationId with
  | none =>
    simp only [personalBillingReplayTx, hr] at h
    cases h
    exact .inl ⟨rfl, rfl⟩
  | some receipt =>
    simp only [personalBillingReplayTx, hr] at h
    split_ifs at h with hf
    cases h
    exact .inr ⟨rfl, receipt, rfl, not_not.mp hf⟩

/-! ### The life cycle of a request -/

variable {state : ResellerRequest}

/-- The field checks at the head of `applyPersonalBillingFactTx`. -/
def factInvalid (fact : PersonalBillingFact) : Bool :=
  fact.requestId = "" ∨ 64 < fact.requestId.utf8ByteSize ∨ fact.operationId = "" ∨
    64 < fact.operationId.utf8ByteSize ∨ fact.userId ≤ 0 ∨ fact.baseQuota < 0 ∨
    fact.customerTarget < 0 ∨ fact.agentTarget < 0 ∨ maxQuota < fact.baseQuota ∨
    maxQuota < fact.customerTarget ∨ maxQuota < fact.agentTarget

/-- The request a fact is about; one that has no row yet starts empty. -/
def requestOf (db : Database) (fact : PersonalBillingFact) : ResellerRequest :=
  match db.requests.get? fact.requestId with
  | some state => state
  | none =>
      { id := fact.requestId, customerUserId := fact.userId, agentUserId := fact.agentUserId }

/-- The guards of `applyPersonalBillingFactTx` on the locked request. -/
def factConflicts (state : ResellerRequest) (fact : PersonalBillingFact) : Bool :=
  (fact.expectedState ≠ .initial ∧ state.state ≠ fact.expectedState) ∨
    (state.customerUserId ≠ fact.userId ∨ state.agentUserId ≠ fact.agentUserId) ∨
    (state.state = .refunded ∨ state.state = .settled ∧ fact.kind = .reserve)

/-- A refund supplies the remaining cumulative target, never more than what is charged. -/
def refundExceeds (state : ResellerRequest) (fact : PersonalBillingFact) : Bool :=
  match state.customerQuota with
  | none => false
  | some customer =>
      customer < fact.customerTarget ∨ state.agentQuota.getD 0 < fact.agentTarget ∨
        state.baseQuota < fact.baseQuota

/-- `switch fact.Kind`: the request in its new state. -/
def nextState (state : ResellerRequest) (fact : PersonalBillingFact) :
    Except BillingError ResellerRequest :=
  match fact.kind with
  | .reserve =>
      .ok { state with
        reservedQuota := fact.agentTarget
        state := if state.state ≠ .outcomeUnknown then .reserved else .outcomeUnknown }
  | .pending => .ok { state with reservedQuota := fact.agentTarget, state := .pending }
  | .settle =>
      .ok { state with
        reservedQuota := 0
        state := .settled
        originalOperationId :=
          if state.originalOperationId = "" then fact.operationId else state.originalOperationId
        customerQuota := some fact.customerTarget
        agentQuota := some fact.agentTarget }
  | .refund =>
      if refundExceeds state fact then .error .resellerInvalid
      else .ok { state with
        reservedQuota := 0
        customerQuota := some fact.customerTarget
        agentQuota := some fact.agentTarget
        state := if fact.customerTarget = 0 ∧ fact.agentTarget = 0 then .refunded
          else .partiallyRefunded }
  | .other _ => .error .resellerInvalid

/-- The columns every accepted fact writes: the entity once it is known, the model, the
    channel, the fact itself and the next version. -/
def stampFact (state : ResellerRequest) (fact : PersonalBillingFact) : ResellerRequest :=
  { state with
    entityType := if 0 < fact.entityId then fact.entityType else state.entityType
    entityId := if 0 < fact.entityId then fact.entityId else state.entityId
    model := fact.model
    channelId := fact.channelId
    snapshot := some fact
    baseQuota := fact.baseQuota
    version := state.version + 1 }

/-- The request after an accepted fact. -/
def nextRequest (state : ResellerRequest) (fact : PersonalBillingFact) :
    Except BillingError ResellerRequest := do
  if factConflicts state fact then .error .resellerConflict
  else
    let next ← nextState state fact
    .ok (stampFact next fact)

theorem requestOf_of_get? (h : db.requests.get? fact.requestId = some state) :
    requestOf db fact = state := by
  simp [requestOf, h]

theorem requestOf_of_none (h : db.requests.get? fact.requestId = none) :
    requestOf db fact
      = { id := fact.requestId, customerUserId := fact.userId,
          agentUserId := fact.agentUserId } := by
  simp [requestOf, h]

theorem requestOf_id (db : Database) (fact : PersonalBillingFact) :
    (requestOf db fact).id = fact.requestId := by
  cases h : db.requests.get? fact.requestId with
  | none => rw [requestOf_of_none h]
  | some state => rw [requestOf_of_get? h, Table.key_of_get? h]

variable {next : ResellerRequest}

/-- No transition touches who the request belongs to; what it reserves is the agent target
    or nothing. -/
theorem nextState_ok (h : nextState state fact = .ok next) :
    next.id = state.id ∧ next.agentUserId = state.agentUserId ∧
      next.customerUserId = state.customerUserId ∧ next.version = state.version ∧
      (next.reservedQuota = fact.agentTarget ∨ next.reservedQuota = 0) := by
  unfold nextState at h
  split at h
  · cases h
    exact ⟨rfl, rfl, rfl, rfl, .inl rfl⟩
  · cases h
    exact ⟨rfl, rfl, rfl, rfl, .inl rfl⟩
  · cases h
    exact ⟨rfl, rfl, rfl, rfl, .inr rfl⟩
  · split at h
    · cases h
    cases h
    exact ⟨rfl, rfl, rfl, rfl, .inr rfl⟩
  · cases h

theorem nextRequest_ok (h : nextRequest state fact = .ok next) :
    factConflicts state fact = false ∧ ∃ mid, nextState state fact = .ok mid ∧
      next = stampFact mid fact := by
  unfold nextRequest at h
  split_ifs at h with hconflicts
  obtain ⟨mid, hmid, hnext⟩ := seq_ok.mp h
  cases hnext
  exact ⟨by simpa using hconflicts, mid, hmid, rfl⟩

/-- What every accepted fact keeps and moves, whatever its kind. -/
theorem nextRequest_frame (h : nextRequest state fact = .ok next) :
    next.id = state.id ∧ next.agentUserId = state.agentUserId ∧
      next.customerUserId = state.customerUserId ∧ next.version = state.version + 1 ∧
      next.snapshot = some fact ∧
      (next.reservedQuota = fact.agentTarget ∨ next.reservedQuota = 0) := by
  obtain ⟨-, mid, hmid, rfl⟩ := nextRequest_ok h
  obtain ⟨hid, hagent, hcustomer, hversion, hreserved⟩ := nextState_ok hmid
  exact ⟨hid, hagent, hcustomer, by rw [← hversion]; rfl, rfl, hreserved⟩

/-- The event that publishes the change from `old` to `new`; a pending fact is published as
    a reservation. -/
def eventOf (old new : ResellerRequest) (fact : PersonalBillingFact) : ResellerEvent :=
  { operationId := fact.operationId
    requestId := new.id
    version := new.version
    kind := if fact.kind = .pending then .reserve else fact.kind
    agentUserId := new.agentUserId
    customerUserId := new.customerUserId
    snapshot := fact
    baseQuota := fact.baseQuota
    customerTarget := fact.customerTarget
    agentTarget := fact.agentTarget
    customerDelta := match new.customerQuota with
      | some quota => quota - old.customerQuota.getD 0
      | none => 0
    reserveDelta := new.reservedQuota - old.reservedQuota
    spendDelta := new.agentQuota.getD 0 - old.agentQuota.getD 0
    originalOperationId := new.originalOperationId }

/-- `tx.Create(&event)` with its two unique indexes. -/
def createEvent (db : Database) (event : ResellerEvent) : Except BillingError Database :=
  if (db.events.get? event.operationId).isSome ∨
      db.events.rows.any (fun e => e.requestId = event.requestId ∧ e.version = event.version) then
    .error .duplicatedKey
  else .ok { db with events := db.events.set event }

def applyPersonalBillingFactTx (db : Database) :
    Option PersonalBillingFact → Except BillingError Database
  | none => .ok db
  | some fact => do
      if factInvalid fact then .error .resellerInvalid
      else
        let replay ← personalBillingReplayTx db (some fact)
        if replay then .ok db
        else
          let state := requestOf db fact
          let next ← nextRequest state fact
          let db := { db with requests := db.requests.set next }
          let db ← if 0 < next.agentUserId then createEvent db (eventOf state next fact) else .ok db
          let receipt := { operationId := fact.operationId, fact := fact }
          .ok { db with receipts := db.receipts.set receipt }

/-! ### What an applied fact wrote -/

variable {db' : Database}

/-- A fact was applied: the request is in its next state, the agent has the event, and the
    operation has its receipt. -/
structure FactApplied (db : Database) (fact : PersonalBillingFact) (next : ResellerRequest)
    (db' : Database) : Prop where
  valid : factInvalid fact = false
  unused : db.receipts.get? fact.operationId = none
  accepted : nextRequest (requestOf db fact) fact = .ok next
  requests : db'.requests = db.requests.set next
  receipts : ∃ receipt, receipt.operationId = fact.operationId ∧ receipt.fact = fact ∧
    db'.receipts = db.receipts.set receipt
  events : (0 < next.agentUserId ∧
      createEvent { db with requests := db.requests.set next }
        (eventOf (requestOf db fact) next fact)
        = .ok { db with requests := db.requests.set next, events := db'.events }) ∨
    (¬ 0 < next.agentUserId ∧ db'.events = db.events)
  rest : db' = { db with
    requests := db'.requests, events := db'.events, receipts := db'.receipts }

theorem createEvent_ok {event : ResellerEvent} (h : createEvent db event = .ok db') :
    db.events.get? event.operationId = none ∧
      (∀ e ∈ db.events.rows, ¬ (e.requestId = event.requestId ∧ e.version = event.version)) ∧
      db' = { db with events := db.events.set event } := by
  unfold createEvent at h
  split_ifs at h with hfree
  cases h
  simpa using hfree

namespace FactApplied

variable {db db' : Database} {fact : PersonalBillingFact}

section

variable (h : FactApplied db fact next db')
include h

theorem id_eq : next.id = fact.requestId := by
  rw [(nextRequest_frame h.accepted).1, requestOf_id]

theorem targets_nonneg : 0 ≤ fact.customerTarget ∧ 0 ≤ fact.agentTarget := by
  have hvalid := h.valid
  simp only [factInvalid, decide_eq_false_iff_not, not_or, not_lt] at hvalid
  exact ⟨hvalid.2.2.2.2.2.2.1, hvalid.2.2.2.2.2.2.2.1⟩

/-- The event of an applied fact is new, under both of its unique indexes. -/
theorem event (hagent : 0 < next.agentUserId) :
    db.events.get? fact.operationId = none ∧
      (∀ e ∈ db.events.rows, ¬ (e.requestId = next.id ∧ e.version = next.version)) ∧
      db'.events = db.events.set (eventOf (requestOf db fact) next fact) := by
  rcases h.events with ⟨-, hevent⟩ | ⟨hnone, -⟩
  · obtain ⟨hfree, hversion, hdb⟩ := createEvent_ok hevent
    exact ⟨hfree, hversion, congrArg Database.events hdb⟩
  · exact absurd hagent hnone

/-- Every event after the fact was there before it or is the fact's own. -/
theorem mem_events {e : ResellerEvent} (he : e ∈ db'.events.rows) :
    e ∈ db.events.rows ∨ 0 < next.agentUserId ∧ e = eventOf (requestOf db fact) next fact := by
  by_cases hagent : 0 < next.agentUserId
  · obtain ⟨hfree, -, hevents⟩ := h.event hagent
    rw [hevents, Table.rows_set_of_none _ hfree] at he
    rcases List.mem_append.mp he with hold | hnew
    · exact .inl hold
    · exact .inr ⟨hagent, by simpa using hnew⟩
  · rcases h.events with ⟨hpos, -⟩ | ⟨-, hevents⟩
    · exact absurd hpos hagent
    · exact .inl (hevents ▸ he)

end

end FactApplied

/-- **A fact is a replay or applied once.** -/
theorem applyPersonalBillingFactTx_ok (h : applyPersonalBillingFactTx db (some fact) = .ok db') :
    ((∃ receipt, db.receipts.get? fact.operationId = some receipt ∧ receipt.fact = fact) ∧
      db' = db) ∨ ∃ next, FactApplied db fact next db' := by
  simp only [applyPersonalBillingFactTx] at h
  split_ifs at h with hvalid
  obtain ⟨replay, hreplay, h⟩ := seq_ok.mp h
  rcases personalBillingReplayTx_ok hreplay with ⟨rfl, hunused⟩ | ⟨rfl, hreceipt⟩
  · right
    obtain ⟨next, hnext, h⟩ := seq_ok.mp h
    refine ⟨next, ?_⟩
    by_cases hagent : 0 < next.agentUserId
    · simp only [hagent] at h
      obtain ⟨mid, hmid, h⟩ := seq_ok.mp h
      obtain ⟨_, _, rfl⟩ := createEvent_ok hmid
      cases h
      exact ⟨by simpa using hvalid, hunused, hnext, rfl, ⟨_, rfl, rfl, rfl⟩, .inl ⟨hagent, hmid⟩,
        rfl⟩
    · simp only [hagent] at h
      cases h
      exact ⟨by simpa using hvalid, hunused, hnext, rfl, ⟨_, rfl, rfl, rfl⟩, .inr ⟨hagent, rfl⟩,
        rfl⟩
  · left
    cases h
    exact ⟨hreceipt, rfl⟩

section

variable {fact : Option PersonalBillingFact} (h : applyPersonalBillingFactTx db fact = .ok db')
include h

theorem applyPersonalBillingFactTx_rest :
    db' = { db with
      requests := db'.requests, events := db'.events, receipts := db'.receipts } := by
  cases fact with
  | none =>
    cases h
    rfl
  | some fact =>
    rcases applyPersonalBillingFactTx_ok h with ⟨_, rfl⟩ | ⟨next, happlied⟩
    · rfl
    · exact happlied.rest

theorem applyPersonalBillingFactTx_balance : balance db' = balance db := by
  rw [applyPersonalBillingFactTx_rest h]
  funext a
  cases a <;> rfl

end

/-! ### Transitions outside the billing transactions -/

/-- `RecordPersonalReservation`: a channel change that needs no further debit. -/
def recordPersonalReservation (db : Database) (fact : PersonalBillingFact) :
    Except BillingError Database :=
  applyPersonalBillingFactTx db (some fact)

/-- `MarkPersonalRequestDispatched`: the outcome of a reserved request is unknown from the
    moment it is handed to the upstream. -/
def markPersonalRequestDispatched (db : Database) (requestId : String) (userId : Int) :
    Except BillingError Database :=
  match db.requests.get? requestId with
  | some state =>
      if state.customerUserId = userId ∧ state.state = .reserved then
        .ok { db with requests := db.requests.set { state with state := .outcomeUnknown } }
      else if state.customerUserId = userId ∧ state.state = .outcomeUnknown then .ok db
      else .error .resellerConflict
  | none => .error .resellerConflict

/-! ### Who pays -/

/-- `validatePersonalFundingTx`: a reseller wallet moves only with the fact of its owner. -/
def validatePersonalFundingTx (db : Database) (userId : Int) (source : BillingSource) :
    Option PersonalBillingFact → Except BillingError Unit
  | none => requireOrdinaryUser db userId
  | some fact =>
      if fact.userId ≠ userId then .error .resellerConflict
      else match resellerUserKind db userId with
        | .ordinary => if fact.agentUserId ≠ 0 then .error .resellerConflict else .ok ()
        | .agentCustomer =>
            match db.identities.get? userId with
            | none => .error .resellerConflict
            | some identity =>
                if identity.agentUserId ≠ fact.agentUserId ∨ fact.agentUserId ≤ 0 ∨
                    source ≠ .wallet then .error .resellerConflict
                else .ok ()
        | _ => .error .resellerForbidden

/-- `recordPersonalFundingTx`: the funding identity of a request is written once. -/
def recordPersonalFundingTx (db : Database) (fact : Option PersonalBillingFact)
    (userId amount tokenId : Int) (applyToken : Bool) (source : BillingSource)
    (subscriptionId : Int) : Except BillingError Database :=
  match fact with
  | none => .ok db
  | some fact =>
      if fact.userId ≠ userId ∨ fact.customerTarget ≠ amount ∨ fact.kind ≠ .reserve then
        .error .resellerConflict
      else if (db.fundingSnapshots.get? fact.requestId).isSome then .error .duplicatedKey
      else
        let funding : ResellerFundingSnapshot :=
          { requestId := fact.requestId, tokenId := tokenId, subscriptionId := subscriptionId,
            applyToken := applyToken, billingSource := source }
        .ok { db with fundingSnapshots := db.fundingSnapshots.set funding }

theorem recordPersonalFundingTx_ok {fact : Option PersonalBillingFact}
    {userId amount tokenId subscriptionId : Int} {applyToken : Bool} {source : BillingSource}
    (h : recordPersonalFundingTx db fact userId amount tokenId applyToken source subscriptionId =
      .ok db') :
    (fact = none ∧ db' = db) ∨
      ∃ f, fact = some f ∧ f.userId = userId ∧ f.customerTarget = amount ∧ f.kind = .reserve ∧
        db.fundingSnapshots.get? f.requestId = none ∧
        db' = { db with fundingSnapshots := db'.fundingSnapshots } := by
  cases fact with
  | none =>
    cases h
    exact .inl ⟨rfl, rfl⟩
  | some f =>
    right
    simp only [recordPersonalFundingTx] at h
    split at h
    · cases h
    rename_i hfact
    simp only [not_or, not_not] at hfact
    split_ifs at h with hnone
    cases h
    exact ⟨f, rfl, hfact.1, hfact.2.1, hfact.2.2, by simpa using hnone, rfl⟩

end TokenGateway.Reseller
