import TokenGateway.Billing.Admission
import TokenGateway.Billing.Expense

namespace TokenGateway.Billing

open Base Reseller

/-!
# The settlement journal

`model/task_settlement.go` and `model/task_quota_reservation.go`.  A journal is persisted before
any balance is touched (`ensureTaskSettlementJournalTx`), applied in one transaction
(`applyTaskSettlementJournal`), and deleted once its log is written.

* `ensureTaskSettlementJournalTx` — persist the fact, or reuse the stored one if it matches;
* `applyTaskSettlementJournal` — move funding, token, entity quota and usage, once;
* `reserveTaskSettlementJournal` — admit and apply a reservation in one transaction;
* `markTaskSettlementLogDone`, `deleteTaskSettlementJournal` — the outbox.
-/

/-! ### Rows -/

/-- A journal with its `applied` flag set. -/
def TaskSettlementJournal.markApplied (j : TaskSettlementJournal) : TaskSettlementJournal :=
  { j with applied := true }

variable (db : Database) (j : TaskSettlementJournal)

def writeJournal : Database :=
  { db with journals := db.journals.set j }

/-! ### The personal fact of a journal -/

/-- `restorePersonalJournalReceiptTx`: a receipt proves that the money moved before. -/
def restorePersonalJournalReceiptTx : Except BillingError (TaskSettlementJournal × Database) :=
  match j.personalFact with
  | none => .ok (j, db)
  | some fact => do
      let replay ← personalBillingReplayTx db (some fact)
      if replay then .ok (j.markApplied, writeJournal db j.markApplied) else .ok (j, db)

/-- `validatePersonalJournalBalanceTx`: the journal's funding expectation has to be the locked
    money fact. -/
def validatePersonalJournalBalanceTx : Except BillingError Unit :=
  match j.personalFact with
  | none => .ok ()
  | some fact =>
      if j.operation = .reserve then .ok ()
      else match db.requests.get? fact.requestId with
        | none =>
            -- One-shot charges have no preceding reservation.
            if j.expectedQuota = 0 then .ok () else .error .recordNotFound
        | some state =>
            match state.snapshot with
            | none => .error (.text "unexpected end of JSON input")
            | some previous =>
                if state.customerUserId ≠ j.userId ∨ previous.customerTarget ≠ j.expectedQuota then
                  .error .resellerConflict
                else .ok ()

/-- `applyPersonalJournalTx`: the request's funding identity, and the fact. -/
def applyPersonalJournalTx : Except BillingError Database :=
  match j.personalFact with
  | none => .ok db
  | some fact =>
      if fact.userId ≠ j.userId ∨ fact.customerTarget ≠ j.finalQuota then .error .resellerConflict
      else
        let funding : ResellerFundingSnapshot :=
          { requestId := fact.requestId, tokenId := j.tokenId, subscriptionId := j.subscriptionId,
            applyToken := j.applyToken, billingSource := j.billingSource }
        let db := match db.fundingSnapshots.get? fact.requestId with
          | none => { db with fundingSnapshots := db.fundingSnapshots.set funding }
          | some _ => db
        applyPersonalBillingFactTx db (some fact)

/-- `adjustPersonalWalletTx`: the wallet of a reseller's customer, inside the wallet range. -/
def adjustPersonalWalletTx (fact : PersonalBillingFact) : Except BillingError Database :=
  if fact.userId ≠ j.userId ∨ fact.customerTarget ≠ j.finalQuota ∨ j.billingSource ≠ .wallet then
    .error .resellerConflict
  else
    let delta := -j.delta
    updateWallet db j.userId delta
      (fun user => if 0 < delta then user.quota ≤ maxWalletQuota - delta
        else minWalletQuota - delta ≤ user.quota)
      (.walletQuotaOutOfRange "")

/-! ### Persisting a journal -/

variable (journal : TaskSettlementJournal)

/-- The insert that does nothing when the operation id is taken, and the read after it. -/
def insertJournal : TaskSettlementJournal × Database :=
  match db.journals.get? journal.requestId with
  | some stored => (stored, db)
  | none => (journal, writeJournal db journal)

variable (stored : TaskSettlementJournal)

/-- An unapplied journal whose money moved before, by its personal receipt or by the invoice
    confirmation of its entity, is marked applied. -/
def restoreReceiptsTx : Except BillingError (TaskSettlementJournal × Database) :=
  if stored.applied then .ok (stored, db)
  else do
    let (stored, db) ← restorePersonalJournalReceiptTx db stored
    if stored.applied then .ok (stored, db)
    else
      let alreadyApplied ← taskInvoiceExpenseReceiptTx db stored
      if alreadyApplied then .ok (stored.markApplied, writeJournal db stored.markApplied)
      else .ok (stored, db)

def ensureTaskSettlementJournalTx : Except BillingError (TaskSettlementJournal × Database) :=
  if journal.requestId = "" ∨ journal.userId ≤ 0 then
    .error (.text "invalid task settlement journal")
  else if journal.finalQuota < 0 ∨ journal.expectedQuota < 0 then
    .error (.text "invalid task settlement quota")
  else if journal.delta ≠ journal.finalQuota - journal.expectedQuota then
    .error (.text "task settlement delta does not match quota fact")
  else
    let (stored, db) := insertJournal db journal
    if stored.toJournalFact ≠ journal.toJournalFact then
      .error (.taskSettlementJournalConflict (": " ++ journal.requestId))
    else do
      let db ← recordOrganizationInvoiceTaskOriginTx db stored
      let (stored, db) ← restoreReceiptsTx db stored
      let db ← confirmOrganizationInvoiceJournalExpenseTx db stored
      .ok (stored, db)

/-- `bindPersonalTaskJournalTx`: the personal fact and the request learn their task. -/
def bindPersonalTaskJournalTx : Except BillingError (TaskSettlementJournal × Database) :=
  match journal.personalFact with
  | none => .ok (journal, db)
  | some fact =>
      let fact := { fact with entityType := journal.entityType, entityId := journal.entityId }
      let expense := if fact.kind = .settle then some journal.finalQuota
        else journal.invoiceExpenseQuota
      let journal := { journal with
        personalFact := some fact
        invoiceTaskEntity := journal.entityType
        invoiceTaskId := journal.entityId
        invoiceExpenseQuota := expense }
      match db.requests.get? fact.requestId with
      | none => .error .resellerConflict
      | some state =>
          if state.customerUserId = fact.userId ∧ state.entityId = 0 then
            let state := { state with entityType := fact.entityType, entityId := fact.entityId }
            .ok (journal, { db with requests := db.requests.set state })
          else .error .resellerConflict

/-- The row insert shared by the two functions below. -/
def insertEntityRow (entity : SettlementEntity) (row : Task) : Except BillingError Database :=
  if (entityRow db entity row.id).isSome then .error .duplicatedKey
  else .ok (setEntityRow db entity row)

/-- The entity row and its initial billing fact, in one transaction. -/
def ensureJournalWithEntity (entity : SettlementEntity) (db : Database)
    (journal : TaskSettlementJournal) (task : Task) :
    Except BillingError (TaskSettlementJournal × Database) := do
  let db ← insertEntityRow db entity task
  let journal := { journal with entityType := entity, entityId := task.id }
  let (journal, db) ← bindPersonalTaskJournalTx db journal
  ensureTaskSettlementJournalTx db journal

/-- `EnsureTaskSettlementJournalWithTask`; `task.id` is the id the insert assigns. -/
def ensureTaskSettlementJournalWithTask := ensureJournalWithEntity .task

def ensureTaskSettlementJournalWithMidjourney := ensureJournalWithEntity .midjourney

/-! ### Applying a journal -/

def taskSettlementEntityAtTarget : Except BillingError Bool :=
  if j.entityType = .absent then .ok false
  else if j.entityType ≠ .task ∧ j.entityType ≠ .midjourney then
    let name := j.entityType.name
    .error (.text s!"unsupported settlement entity \"{name}\"")
  else match entityRow db j.entityType j.entityId with
    | none => .error .recordNotFound
    | some row =>
        let quota := row.quota
        let expected := j.entityExpectedQuota
        let target := j.entityFinalQuota
        if quota = target then .ok true
        else if quota ≠ expected then
          .error (.taskSettlementJournalConflict
            s!": entity quota is {quota}, expected {expected} or target {target}")
        else .ok false

def applyTaskSettlementFundingTx : Except BillingError Database :=
  if j.delta = 0 then .ok db
  else if j.billingSource = .subscription then
    if j.operation = .refund ∧ j.subscriptionPreConsumeRequestId ≠ "" then do
      let (refunded, db) ← refundSubscriptionPreConsumeTx db j.subscriptionPreConsumeRequestId
      if refunded ≠ j.subscriptionPreConsumed then
        .error (.taskSettlementJournalConflict ": subscription refund amount changed")
      else
        let remaining := -j.delta - refunded
        if 0 < remaining then postConsumeUserSubscriptionDeltaTx db j.subscriptionId (-remaining)
        else .ok db
    else postConsumeUserSubscriptionDeltaTx db j.subscriptionId j.delta
  else match j.personalFact with
    | some fact => adjustPersonalWalletTx db j fact
    | none => adjustUserWalletInTx db j.userId (-j.delta)

/-- `applyTaskSettlementTokenTx`: a deleted token has no balance to reconcile. -/
def applyTaskSettlementTokenTx : Database :=
  if j.applyToken = false ∨ j.tokenId ≤ 0 ∨ j.delta = 0 then db
  else match db.tokens.get? j.tokenId with
    | some token => chargeToken db token j.delta
    | none => db

/-- `updateTaskSettlementEntityTx`: compare and set of the entity's quota. -/
def updateTaskSettlementEntityTx : Except BillingError Database :=
  if j.personalFact.isSome ∧ j.entityExpectedQuota = j.entityFinalQuota then .ok db
  else if j.entityType = .absent then .ok db
  else if j.entityType ≠ .task ∧ j.entityType ≠ .midjourney then
    let name := j.entityType.name
    .error (.text s!"unsupported settlement entity \"{name}\"")
  else
    let race := .error (.taskSettlementJournalConflict (": entity update race for " ++ j.requestId))
    match entityRow db j.entityType j.entityId with
    | some row =>
        if row.quota = j.entityExpectedQuota then
          .ok (setEntityRow db j.entityType { row with quota := j.entityFinalQuota })
        else race
    | none => race

def addUserUsage (userId usage : Int) : Database :=
  match db.users.get? userId with
  | some user => { db with users := db.users.set { user with
      usedQuota := user.usedQuota + usage
      requestCount := user.requestCount + 1 } }
  | none => db

def addChannelUsage (channelId usage : Int) : Database :=
  match db.channels.get? channelId with
  | some channel => { db with channels := db.channels.set { channel with
      usedQuota := channel.usedQuota + usage } }
  | none => db

def applyTaskSettlementUsageTx : Database :=
  if j.applyUsage = false then db
  else
    let db := addUserUsage db j.userId j.usageDelta
    if j.channelId ≤ 0 then db else addChannelUsage db j.channelId j.usageDelta

def taskSubmissionBillingPending (taskId : Int) : Bool :=
  db.journals.rows.any fun j =>
    j.entityType = .task ∧ j.entityId = taskId ∧ j.operation = .settle ∧ j.applied = false

/-- The token's `unlimited_quota`, read before a reservation. -/
def reservationTokenUnlimited : Except BillingError Bool :=
  if j.applyToken ∧ 0 < j.tokenId then
    match db.tokens.get? j.tokenId with
    | some token => .ok token.unlimitedQuota
    | none => .error .recordNotFound
  else .ok false

def reserveTaskSettlementBalancesTx : Except BillingError Database :=
  match db.tasks.get? j.entityId with
  | none => .error .recordNotFound
  | some task =>
      if task.status = .failure then .error (.text "cannot reserve quota for a failed task")
      else if taskSubmissionBillingPending db j.entityId then
        .error (.text "task submission billing is still pending")
      else do
        let unlimited ← reservationTokenUnlimited db j
        reserveBillingBalances db
          { personalFact := j.personalFact, requireAvailableQuota := true, userId := j.userId,
            amount := j.delta, billingSource := j.billingSource,
            subscriptionId := j.subscriptionId, tokenId := j.tokenId,
            applyToken := j.applyToken, tokenUnlimited := unlimited }

/-- The balances of a journal: a reservation debits only what is available. -/
def moveBalancesTx : Except BillingError Database :=
  if j.operation = .reserve then reserveTaskSettlementBalancesTx db j
  else do
    let db ← applyTaskSettlementFundingTx db j
    .ok (applyTaskSettlementTokenTx db j)

/-- Everything a journal moves: balances, entity quota and usage. -/
def moveMoneyTx : Except BillingError Database := do
  let db ← moveBalancesTx db j
  let db ← updateTaskSettlementEntityTx db j
  .ok (applyTaskSettlementUsageTx db j)

/-- The end of the apply transaction: the personal fact, the flag, the invoice receipt.  The
    row was locked when it was read, so the flag's compare-and-set cannot lose a race. -/
def finishApplyTx (appliedNow : Bool) :
    Except BillingError (TaskSettlementJournal × Bool × Database) := do
  let db ← applyPersonalJournalTx db stored
  let db := writeJournal db stored.markApplied
  let db ← markTaskInvoiceExpenseAppliedTx db stored.markApplied
  .ok (stored.markApplied, appliedNow, db)

/-- The body of the apply transaction for a journal that no receipt proves applied.  Personal
    receipts, rather than the staged task quota, prove money application. -/
def applyUnappliedTx :
    Except BillingError (TaskSettlementJournal × Bool × Database) := do
  let atTarget ← taskSettlementEntityAtTarget db stored
  validatePersonalJournalBalanceTx db stored
  if atTarget ∧ stored.personalFact = none then finishApplyTx db stored false
  else
    let db ← moveMoneyTx db stored
    finishApplyTx db stored true

variable (requestId : String)

/-- `ApplyTaskSettlementJournal`: the stored journal, whether this transaction moved the money,
    and the new database. -/
def applyTaskSettlementJournal : Except BillingError (TaskSettlementJournal × Bool × Database) :=
  match db.journals.get? requestId with
  | none => .error .recordNotFound
  | some stored =>
      if stored.applied then .ok (stored, false, db)
      else do
        let (stored, db) ← restorePersonalJournalReceiptTx db stored
        if stored.applied then .ok (stored, false, db)
        else applyUnappliedTx db stored

/-! ### Reservation and outbox -/

/-- `ReserveTaskSettlementJournal`: insufficient funds roll the journal back too. -/
def reserveTaskSettlementJournal : Except BillingError (TaskSettlementJournal × Database) :=
  if journal.operation ≠ .reserve ∨ journal.entityType ≠ .task ∨ journal.delta ≤ 0 then
    .error (.text "invalid task quota reservation")
  else do
    let (_, db) ← ensureTaskSettlementJournalTx db journal
    let (stored, _, db) ← applyTaskSettlementJournal db journal.requestId
    .ok (stored, db)

/-- `MarkTaskSettlementLogDone`: an update of an applied row. -/
def markTaskSettlementLogDone : Database :=
  match db.journals.get? requestId with
  | some j => if j.applied then writeJournal db { j with logDone := true } else db
  | none => db

/-- `DeleteTaskSettlementJournal`: only a finished row is deleted. -/
def deleteTaskSettlementJournal : Database :=
  match db.journals.get? requestId with
  | some j =>
      if j.applied ∧ j.logDone then { db with journals := db.journals.erase requestId } else db
  | none => db

/-- `ListPendingTaskSettlementJournals`: the oldest `limit` unfinished rows. -/
def listPendingTaskSettlementJournals (limit : Nat) : List TaskSettlementJournal :=
  (db.journals.rows.filter fun j => j.applied = false ∨ j.logDone = false).take limit

end TokenGateway.Billing
