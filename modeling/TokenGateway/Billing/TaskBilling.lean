import TokenGateway.Billing.Outbox

namespace TokenGateway.Billing

open Base Reseller

/-!
# Billing of asynchronous tasks

`service/task_billing.go` and `service/seedance_enhance_reservation.go`, for tasks without
personal pricing.  A poller works on its own copy of the task, whose quota may be stale.

* `refundTaskJournal`, `recalculateTaskJournal`, `reserveTaskJournal` — the journals that the
  pollers issue, each under an operation id made from the task;
* `confirmTaskInvoiceExpense` — the confirmation of an amount that needs no journal;
* `recalculateTaskQuota`, `refundTaskQuota`, `reserveTaskDelivery` — the calls;
* `OutboxStep` / `outboxStep` — the transactions of pollers, workers and sweeps;
* `TaskStep` / `taskStep` — the transactions of the calls on one task, of which every call is a
  run (`recalculateTaskQuota_run` and its siblings).
-/

/-! ### Operation ids and journals -/

/-- The operation id of a refund, by its entity. -/
def refundOperationId : SettlementEntity × Int → String
  | (.midjourney, id) => s!"midjourney-refund:{id}"
  | (_, id) => s!"task-refund:{id}"

/-- The journal of `RefundTaskQuota`. -/
def refundTaskJournal (task : Task) (log : LogPayload) : TaskSettlementJournal :=
  { requestId := refundOperationId (.task, task.id)
    operation := .refund
    entityType := .task
    entityId := task.id
    entityExpectedQuota := task.quota
    entityFinalQuota := 0
    expectedQuota := task.quota
    finalQuota := 0
    userId := task.userId
    tokenId := task.tokenId
    billingSource := task.billingSource
    subscriptionId := task.subscriptionId
    delta := -task.quota
    applyToken := 0 < task.tokenId
    logPayload := some log }

/-- The operation id of a recalculation. -/
def recalculateOperationId (taskId : Int) : String := s!"task-recalculate:{taskId}"

/-- The journal of `RecalculateTaskQuota`. -/
def recalculateTaskJournal (task : Task) (actualQuota : Int) (log : LogPayload) :
    TaskSettlementJournal :=
  let quotaDelta := actualQuota - task.quota
  { requestId := recalculateOperationId task.id
    operation := .recalculate
    entityType := .task
    entityId := task.id
    entityExpectedQuota := task.quota
    entityFinalQuota := actualQuota
    expectedQuota := task.quota
    finalQuota := actualQuota
    userId := task.userId
    channelId := task.channelId
    tokenId := task.tokenId
    billingSource := task.billingSource
    subscriptionId := task.subscriptionId
    delta := quotaDelta
    usageDelta := max quotaDelta 0
    applyUsage := 0 < quotaDelta
    applyToken := 0 < task.tokenId
    logPayload := some log }

/-- The journal of a delivery reservation. -/
def reserveTaskJournal (task : Task) (quota : Int) (log : LogPayload) : TaskSettlementJournal :=
  let taskId := task.id
  { requestId := s!"task-reserve:{taskId}:{quota}"
    operation := .reserve
    entityType := .task
    entityId := task.id
    entityExpectedQuota := task.quota
    entityFinalQuota := quota
    expectedQuota := task.quota
    finalQuota := quota
    userId := task.userId
    channelId := task.channelId
    tokenId := task.tokenId
    billingSource := task.billingSource
    subscriptionId := task.subscriptionId
    delta := quota - task.quota
    usageDelta := quota - task.quota
    applyUsage := true
    applyToken := 0 < task.tokenId
    logPayload := some log }

variable (db : Database)

/-- `ConfirmTaskInvoiceExpense` of a task without personal pricing. -/
def confirmTaskInvoiceExpense (taskId quota : Int) (source : String) :
    Except BillingError Database :=
  confirmTaskInvoiceExpenseTx db .task taskId quota source 0 true

/-! ### The calls -/

/-- Where the databases fail a call: in the transaction that persists its journal, or later. -/
structure CallFaults extends RecoveryFaults where
  persist : Bool := false

/-- `applyPersistedTaskSettlementJournal`: whether the call succeeded, and the database.  A
    failed delete is only logged. -/
def applyPersistedTaskSettlementJournal (stored : TaskSettlementJournal)
    (faults : RecoveryFaults) : Bool × Database :=
  let complete := fun (db : Database) (stored : TaskSettlementJournal) =>
    match completeTaskSettlementJournalLog db stored faults.log with
    | .error _ => (false, db)
    | .ok db =>
        (true, if faults.delete then db else deleteTaskSettlementJournal db stored.requestId)
  if faults.apply then (false, db)
  else if stored.applied then complete db stored
  else match applyTaskSettlementJournal db stored.requestId with
    | .error _ => (false, db)
    | .ok (stored, _, db) => complete db stored

/-- The service's `applyTaskSettlementJournal`: persist the journal, then finish it. -/
def settleTaskJournal (journal : TaskSettlementJournal) (faults : CallFaults) : Bool × Database :=
  let persisted := if journal.operation = .reserve then reserveTaskSettlementJournal db journal
    else ensureTaskSettlementJournalTx db journal
  if faults.persist then (false, db)
  else match persisted with
    | .error _ => (false, db)
    | .ok (stored, db) => applyPersistedTaskSettlementJournal db stored faults.toRecoveryFaults

/-- `RefundTaskQuota` on a copy of the task. -/
def refundTaskQuota (task : Task) (log : LogPayload) (faults : CallFaults) : Bool × Database :=
  if task.quota = 0 then
    if faults.persist then (false, db)
    else match confirmTaskInvoiceExpense db task.id 0 (refundOperationId (.task, task.id)) with
      | .error _ => (false, db)
      | .ok db => (true, db)
  else settleTaskJournal db (refundTaskJournal task log) faults

/-- `RecalculateTaskQuota` on a copy of the task. -/
def recalculateTaskQuota (task : Task) (actualQuota : Int) (log : LogPayload)
    (faults : CallFaults) : Bool × Database :=
  if actualQuota < 0 then (true, db)
  else if actualQuota - task.quota = 0 then
    if faults.persist then (false, db)
    else match confirmTaskInvoiceExpense db task.id actualQuota
        (recalculateOperationId task.id) with
      | .error _ => (false, db)
      | .ok db => (true, db)
  else settleTaskJournal db (recalculateTaskJournal task actualQuota log) faults

/-- The end of `ReserveSeedanceEnhanceDelivery`: `quota` is the metered price of the delivery. -/
def reserveTaskDelivery (task : Task) (quota : Int) (log : LogPayload)
    (faults : CallFaults) : Bool × Database :=
  if quota ≤ task.quota then (true, db)
  else settleTaskJournal db (reserveTaskJournal task quota log) faults

/-! ### The transactions of the outbox -/

/-- One transaction on the outbox: persist a journal, alone or with its new entity row, admit a
    reservation, or a step of a worker or sweep. -/
inductive OutboxStep where
  | ensure (journal : TaskSettlementJournal)
  | ensureWith (entity : SettlementEntity) (journal : TaskSettlementJournal) (row : Task)
  | reserve (journal : TaskSettlementJournal)
  | sweep (step : SweepStep)
  deriving DecidableEq

/-- The database after one transaction on the outbox. -/
def outboxStep : OutboxStep → Database
  | .ensure journal => commit db ((ensureTaskSettlementJournalTx db journal).map Prod.snd)
  | .ensureWith entity journal row =>
      commit db ((ensureJournalWithEntity entity db journal row).map Prod.snd)
  | .reserve journal => commit db ((reserveTaskSettlementJournal db journal).map Prod.snd)
  | .sweep step => sweepStep db step

/-- A transaction that persists a journal commits or rolls back. -/
theorem outboxStep_ensure (journal : TaskSettlementJournal) : outboxStep db (.ensure journal) = db ∨
      ∃ old stored, Ensured db journal old stored (outboxStep db (.ensure journal)) := by
  simp only [outboxStep]
  cases hens : ensureTaskSettlementJournalTx db journal with
  | error e => exact .inl rfl
  | ok out =>
    obtain ⟨stored, db'⟩ := out
    obtain ⟨old, h⟩ := ensureTaskSettlementJournalTx_ok hens
    exact .inr ⟨old, stored, h⟩

/-- A committed reservation is its journal persisted and then applied. -/
theorem reserveTaskSettlementJournal_ok {db db' : Database} {journal stored : TaskSettlementJournal}
    (h : reserveTaskSettlementJournal db journal = .ok (stored, db')) :
    journal.operation = .reserve ∧ 0 < journal.delta ∧ ∃ db₁ ensured now,
      ensureTaskSettlementJournalTx db journal = .ok (ensured, db₁) ∧
      applyTaskSettlementJournal db₁ journal.requestId = .ok (stored, now, db') := by
  unfold reserveTaskSettlementJournal at h
  split_ifs at h with hvalid
  obtain ⟨⟨ensured, db₁⟩, hens, h⟩ := seq_ok.mp h
  obtain ⟨⟨stored', now, db₂⟩, happly, h⟩ := seq_ok.mp h
  cases h
  simp only [not_or, not_not, not_le] at hvalid
  exact ⟨hvalid.1, hvalid.2.2, db₁, ensured, now, hens, happly⟩

/-! ### The transactions of the calls on one task -/

/-- One transaction on a task: the first one of a call on a copy with quota `quota`, or one that
    finishes a journal, of the call or of a sweep. -/
inductive TaskStep where
  | recalculate (quota actualQuota : Int) (log : LogPayload)
  | refund (quota : Int) (log : LogPayload)
  | reserve (quota target : Int) (log : LogPayload)
  | sweep (step : SweepStep)
  deriving DecidableEq

/-- The database after one transaction on `task`, whose own quota is not read. -/
def taskStep (task : Task) (db : Database) : TaskStep → Database
  | .recalculate quota actualQuota log =>
      if actualQuota < 0 then db
      else if actualQuota - quota = 0 then
        commit db (confirmTaskInvoiceExpense db task.id actualQuota
          (recalculateOperationId task.id))
      else outboxStep db (.ensure (recalculateTaskJournal
        { task with quota := quota } actualQuota log))
  | .refund quota log =>
      if quota = 0 then
        commit db (confirmTaskInvoiceExpense db task.id 0 (refundOperationId (.task, task.id)))
      else outboxStep db (.ensure (refundTaskJournal { task with quota := quota } log))
  | .reserve quota target log =>
      if target ≤ quota then db
      else outboxStep db (.reserve (reserveTaskJournal { task with quota := quota } target log))
  | .sweep step => sweepStep db step

theorem reaches_of_sweep {task : Task} {db db' : Database} (h : Reaches sweepStep db db') :
    Reaches (taskStep task) db db' := by
  obtain ⟨steps, rfl⟩ := h
  induction steps generalizing db with
  | nil => exact .refl db
  | cons step steps ih => exact .trans ⟨[.sweep step], rfl⟩ ih

/-- What follows the first transaction of a call is a run of a sweep's transactions. -/
theorem applyPersistedTaskSettlementJournal_run (stored : TaskSettlementJournal)
    (faults : RecoveryFaults) :
    Reaches sweepStep db (applyPersistedTaskSettlementJournal db stored faults).2 := by
  unfold applyPersistedTaskSettlementJournal
  extract_lets complete
  have hcomplete : ∀ db stored, Reaches sweepStep db (complete db stored).2 := by
    intro db stored
    unfold complete
    split
    · exact .refl db
    · next db₁ hlog =>
      refine (completeTaskSettlementJournalLog_run hlog).trans ?_
      dsimp only
      split
      · exact .refl db₁
      · exact ⟨[.delete stored.requestId], rfl⟩
  split
  · exact .refl db
  split
  · exact hcomplete db stored
  split
  · exact .refl db
  · next happly => exact (applyTaskSettlementJournal_run happly).trans (hcomplete _ _)

/-- A call that starts with the step `first`, or fails before it. -/
theorem settleTaskJournal_run {task : Task} {db : Database} {journal : TaskSettlementJournal}
    (first : TaskStep) (hfirst : taskStep task db first = commit db
      ((if journal.operation = .reserve then reserveTaskSettlementJournal db journal
        else ensureTaskSettlementJournalTx db journal).map Prod.snd))
    (faults : CallFaults) : Reaches (taskStep task) db (settleTaskJournal db journal faults).2 := by
  unfold settleTaskJournal
  dsimp only
  split
  · exact .refl db
  split
  · exact .refl db
  · next stored db₁ hpersisted =>
    rw [hpersisted] at hfirst
    exact .trans ⟨[first], hfirst.symm⟩ (reaches_of_sweep
      (applyPersistedTaskSettlementJournal_run db₁ stored faults.toRecoveryFaults))

private theorem confirm_run {task : Task} {db : Database} (first : TaskStep)
    {result : Except BillingError Database} (hfirst : taskStep task db first = commit db result)
    (fault : Bool) :
    ∃ steps, (if fault then (false, db) else match result with
      | .error _ => (false, db)
      | .ok db => (true, db)).2 = run (taskStep task) db steps := by
  cases fault with
  | true => exact ⟨[], rfl⟩
  | false =>
    cases result with
    | error e => exact ⟨[], rfl⟩
    | ok db' => exact ⟨[first], hfirst.symm⟩

/-- **A recalculation is a run of its transactions.** -/
theorem recalculateTaskQuota_run (task : Task) (quota actualQuota : Int)
    (log : LogPayload) (faults : CallFaults) :
    ∃ steps, (recalculateTaskQuota db { task with quota := quota } actualQuota log faults).2
      = run (taskStep task) db steps := by
  unfold recalculateTaskQuota
  split
  · exact ⟨[], rfl⟩
  next hneg =>
  split
  · next hzero =>
    refine confirm_run (.recalculate quota actualQuota log) ?_ faults.persist
    rw [taskStep, if_neg hneg, if_pos hzero]
  · next hzero =>
    refine settleTaskJournal_run (.recalculate quota actualQuota log) ?_ faults
    rw [taskStep, if_neg hneg, if_neg hzero]
    rfl

/-- **A refund is a run of its transactions.** -/
theorem refundTaskQuota_run (task : Task) (quota : Int) (log : LogPayload) (faults : CallFaults) :
    ∃ steps, (refundTaskQuota db { task with quota := quota } log faults).2 =
      run (taskStep task) db steps := by
  unfold refundTaskQuota
  split
  · next hzero =>
    refine confirm_run (.refund quota log) ?_ faults.persist
    rw [taskStep, if_pos hzero]
  · next hzero =>
    refine settleTaskJournal_run (.refund quota log) ?_ faults
    rw [taskStep, if_neg hzero]
    rfl

/-- **A delivery reservation is a run of its transactions.** -/
theorem reserveTaskDelivery_run (task : Task) (quota target : Int)
    (log : LogPayload) (faults : CallFaults) :
    ∃ steps, (reserveTaskDelivery db { task with quota := quota } target log faults).2
      = run (taskStep task) db steps := by
  unfold reserveTaskDelivery
  split_ifs with hle
  · exact ⟨[], rfl⟩
  · refine settleTaskJournal_run (.reserve quota target log) ?_ faults
    simp only [taskStep, hle]
    rfl

end TokenGateway.Billing
