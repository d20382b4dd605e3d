import TokenGateway.Billing.Applied
import TokenGateway.Billing.Replay

namespace TokenGateway.Billing

open Base Reseller JournalFact

/-!
# Conservation of a task's money

Pollers reserve, recalculate and refund a task from stale copies of its quota, and sweeps finish
their journals.  Only the compare-and-set of the entity quota orders them.

* `taskAudit` — a transaction on a task, with an account of what its operations took from the
  funding source;
* `TaskInv` — the operations took what they added to the quota;
* `task_money_conserved` — for every interleaving.

A subscription gives back no more than its usage, so a refund after the usage was reset gives
back less than it takes off the quota (`refund_after_reset`).
-/

/-! ### The account of a task -/

variable (task : Task)

/-- The funding source of a task. -/
def Task.account : Account := fundingAccount task.billingSource task.userId task.subscriptionId

/-- The journal settles the task. -/
def JournalFact.concerns (j : JournalFact) (task : Task) : Bool :=
  j.entityType = .task ∧ j.entityId = task.id

/-- What the floor of a subscription's usage cuts off a give-back. -/
def JournalFact.cutOff (j : JournalFact) (db : Database) : Int :=
  if j.billingSource = .subscription then
    max 0 (balance db (.subscription j.subscriptionId) - j.delta)
  else 0

theorem debit_eq_add_cutOff (j : JournalFact) (db : Database) :
    j.debit db = j.delta + j.cutOff db := by
  unfold debit cutOff
  split
  · omega
  · omega

/-- A database, the net debit of the task's operations, what was cut off their give-backs, and
    what its submission added to the quota. -/
structure AuditedTask where
  db : Database
  (net cut submitted : Int := 0)

/-- A transaction of the task's operations: what it took from the funding source is charged. -/
def AuditedTask.charge (s : AuditedTask) (db' : Database) : AuditedTask :=
  { s with db := db', net := s.net + (balance s.db task.account - balance db' task.account) }

/-- The transaction that applies a journal; a submission is no operation on the task. -/
def auditApply (s : AuditedTask) (id : String) : AuditedTask :=
  let db' := applyStep s.db id
  match s.db.journals.get? id with
  | none => { s with db := db' }
  | some j =>
      if j.concerns task = false then { s with db := db' }
      else if j.operation = .settle then
        { s with
          db := db'
          submitted := s.submitted + (balance db' (.taskQuota task.id) -
            balance s.db (.taskQuota task.id)) }
      else
        { s.charge task db' with
          cut := s.cut + if appliesNow s.db id then j.cutOff s.db else 0 }

/-- One transaction on the task, with its account. -/
def taskAudit (s : AuditedTask) (step : TaskStep) : AuditedTask :=
  match step with
  | .sweep (.apply id) => auditApply task s id
  | step => s.charge task (taskStep task s.db step)

/-! ### The journals of a task -/

/-- A journal that an operation on the task issued. -/
structure OwnJournal (task : Task) (j : JournalFact) : Prop where
  source : j.billingSource = task.billingSource
  userId : j.userId = task.userId
  subscriptionId : j.subscriptionId = task.subscriptionId
  fact : j.personalFact = none
  record : j.subscriptionPreConsumeRequestId = ""
  delta : j.delta = j.entityFinalQuota - j.entityExpectedQuota

namespace OwnJournal

variable {task : Task} {j : JournalFact}

theorem account (h : OwnJournal task j) : j.account = task.account := by
  unfold JournalFact.account Task.account
  rw [h.source, h.userId, h.subscriptionId]

theorem plain (h : OwnJournal task j) : ¬ j.refundsRecord := fun hrec => hrec.2.2 h.record

end OwnJournal

/-! ### What applying a journal does to the account -/

variable {j : TaskSettlementJournal} {db db' : Database}

/-- Moving the money changes the quota of the journal's own entity. -/
theorem moveMoneyTx_taskQuota (h : moveMoneyTx db j = .ok db') (id : Int) :
    balance db' (.taskQuota id) = balance db (.taskQuota id)
      + entityPosting j.entityType j.entityId (j.entityFinalQuota - j.entityExpectedQuota)
        (.taskQuota id) := by
  obtain ⟨db₁, db₂, hbal, hent, rfl⟩ := moveMoneyTx_ok h
  have hbefore : balance db₁ (.taskQuota id) = balance db (.taskQuota id) := by
    rw [moveBalancesTx_rest hbal]
    rfl
  rw [applyTaskSettlementUsageTx_balance db₂ j rfl, updateTaskSettlementEntityTx_balance hent,
    Pi.add_apply, hbefore]

variable {now : Bool} {task : Task}

/-- A journal that settles something else leaves the task's quota alone. -/
theorem ApplyOutcome.taskQuota_eq (h : ApplyOutcome db j now db')
    (hother : j.concerns task = false) :
    balance db' (.taskQuota task.id) = balance db (.taskQuota task.id) := by
  cases h with
  | already _ | receipt _ _ => rfl
  | atTarget _ _ _ hfinish => rw [hfinish.balance_eq]
  | moved _ _ _ _ hmove hfinish =>
    rw [hfinish.balance_eq, moveMoneyTx_taskQuota hmove]
    have hzero : entityPosting j.entityType j.entityId
        (j.entityFinalQuota - j.entityExpectedQuota) (.taskQuota task.id) = 0 := by
      cases hentity : j.entityType with
      | task =>
        have hid : j.entityId ≠ task.id := by
          intro heq
          simp [concerns, hentity, heq] at hother
        exact Pi.single_eq_of_ne (fun heq => hid (Account.taskQuota.inj heq).symm) _
      | midjourney => exact Pi.single_eq_of_ne (fun heq => by cases heq) _
      | absent | other name => rfl
    rw [hzero, add_zero]

/-- A journal of the task takes from the funding source what it adds to the quota, and what is
    cut off. -/
theorem ApplyOutcome.conserves (h : ApplyOutcome db j now db')
    (hown : OwnJournal task j.toJournalFact)
    (hconcerns : j.concerns task = true) :
    balance db task.account - balance db' task.account
      = balance db' (.taskQuota task.id) - balance db (.taskQuota task.id) + if now then j.cutOff db
        else 0 := by
  cases h with
  | already _ => simp
  | receipt _ hr =>
    obtain ⟨fact, _, hfact, _⟩ := hr
    exact absurd (hown.fact.symm.trans hfact) (by simp)
  | atTarget _ _ _ hfinish => simp [hfinish.balance_eq]
  | moved _ hnew _ _ hmove hfinish =>
    obtain ⟨hentity, hid⟩ : j.entityType = .task ∧ j.entityId = task.id := by
      simpa [concerns] using hconcerns
    have hfunding := moveMoneyTx_balance hown.plain hnew hmove (account_isUsage j.toJournalFact)
    have hquota := moveMoneyTx_taskQuota hmove task.id
    simp only [posting, Pi.add_apply, journalTokenPosting_account, entityPosting_account,
      Pi.single_eq_same] at hfunding
    rw [hown.account, debit_eq_add_cutOff, hown.delta] at hfunding
    rw [hentity, hid] at hquota
    simp only [entityPosting, Pi.single_eq_same] at hquota
    rw [hfinish.balance_eq, if_pos rfl]
    omega

/-! ### The invariant -/

/-- The operations on the task took from its funding source what they added to its quota, which
    was `initial` at the start. -/
structure TaskInv (task : Task) (initial : Int) (s : AuditedTask) : Prop where
  conserved : s.net = balance s.db (.taskQuota task.id) - initial - s.submitted + s.cut
  cut : task.billingSource ≠ .subscription → s.cut = 0
  journals : ∀ k j, s.db.journals.get? k = some j → j.applied = false →
    j.concerns task = true → j.operation ≠ .settle → OwnJournal task j.toJournalFact

section Step

variable {initial : Int} {s : AuditedTask}

/-- Rows that are still unapplied are old ones, or issued by the task's operations. -/
def IssuedRows (task : Task) (db db' : Database) : Prop :=
  ∀ k j', db'.journals.get? k = some j' → j'.applied = false →
    (∃ j, db.journals.get? k = some j ∧ j.toJournalFact = j'.toJournalFact ∧
      j.applied = false) ∨ OwnJournal task j'.toJournalFact

theorem IssuedRows.journals (hrows : IssuedRows task db db')
    (hold : ∀ k j, db.journals.get? k = some j → j.applied = false →
      j.concerns task = true → j.operation ≠ .settle → OwnJournal task j.toJournalFact) :
    ∀ k j, db'.journals.get? k = some j → j.applied = false →
      j.concerns task = true → j.operation ≠ .settle → OwnJournal task j.toJournalFact := by
  intro k j' hj' hunapplied hconcerns hop
  rcases hrows k j' hj' hunapplied with ⟨j, hj, hfact, happlied⟩ | hown
  · rw [← hfact] at hconcerns hop ⊢
    exact hold k j hj happlied hconcerns hop
  · exact hown

theorem taskInv_quiet (hinv : TaskInv task initial s) (hbal : balance db' = balance s.db)
    (hrows : IssuedRows task s.db db') : TaskInv task initial (s.charge task db') := by
  refine ⟨?_, hinv.cut, hrows.journals hinv.journals⟩
  have h := hinv.conserved
  simp only [AuditedTask.charge, hbal]
  omega

theorem issuedRows_same (h : db'.journals = db.journals) : IssuedRows task db db' :=
  fun _ j' hj' hunapplied => .inl ⟨j', h ▸ hj', rfl, hunapplied⟩

variable {journal : TaskSettlementJournal}

theorem Ensured.issuedRows {old stored : TaskSettlementJournal}
    (h : Ensured db journal old stored db') (hown : OwnJournal task journal.toJournalFact) :
    IssuedRows task db db' := by
  intro k j' hj' hunapplied
  have hget := (h.rows k).symm.trans hj'
  by_cases hk : k = journal.requestId
  · rw [if_pos hk] at hget
    cases hget
    rw [h.stored_fact.1]
    exact .inr hown
  · rw [if_neg hk] at hget
    exact .inl ⟨j', hget, rfl, hunapplied⟩

theorem ApplyOutcome.issuedRows
    (h : ApplyOutcome db j now db') (hrow : db.journals.get? j.requestId = some j) :
    IssuedRows task db db' := by
  intro k j' hj' hunapplied
  have hget := (h.rows hrow k).symm.trans hj'
  by_cases hk : k = j.requestId
  · rw [if_pos hk] at hget
    cases hget
    exact absurd hunapplied (by simp [TaskSettlementJournal.markApplied])
  · rw [if_neg hk] at hget
    exact .inl ⟨j', hget, rfl, hunapplied⟩

section

variable (hinv : TaskInv task initial s)
include hinv

theorem taskInv_idle : TaskInv task initial (s.charge task s.db) :=
  taskInv_quiet hinv rfl (issuedRows_same rfl)

theorem taskInv_ensure (hown : OwnJournal task journal.toJournalFact) :
    TaskInv task initial (s.charge task (outboxStep s.db (.ensure journal))) := by
  rcases outboxStep_ensure s.db journal with hsame | ⟨old, stored, h⟩
  · rw [hsame]
    exact taskInv_idle hinv
  · exact taskInv_quiet hinv h.balance_eq (h.issuedRows hown)

theorem taskInv_confirm (taskId quota : Int) (source : String) :
    TaskInv task initial (s.charge task (commit s.db
      (confirmTaskInvoiceExpense s.db taskId quota source))) := by
  cases hconf : confirmTaskInvoiceExpense s.db taskId quota source with
  | error e => exact taskInv_idle hinv
  | ok db' =>
    have honly := confirmTaskInvoiceExpenseTx_expenseOnly hconf
    refine taskInv_quiet hinv honly.balance_eq (issuedRows_same ?_)
    rw [commit_ok, honly.rest]

theorem taskInv_apply (id : String) : TaskInv task initial (auditApply task s id) := by
  rcases applyStep_cases s.db id with ⟨hsame, hnow⟩ | ⟨j, hj, hunapplied, hout⟩
  · unfold auditApply
    rw [hsame, hnow]
    split
    · exact hinv
    split
    · exact hinv
    split
    · simpa using hinv
    · simpa [AuditedTask.charge] using hinv
  have hid : j.requestId = id := Table.key_of_get? hj
  subst hid
  have hrows : IssuedRows task s.db (applyStep s.db j.requestId) := hout.issuedRows hj
  have hcons := hinv.conserved
  unfold auditApply
  rw [hj]
  dsimp only
  split
  · -- another entity
    rename_i hother
    refine ⟨?_, hinv.cut, hrows.journals hinv.journals⟩
    rw [hout.taskQuota_eq hother]
    exact hcons
  rename_i hconcerns
  have hconcerns : j.concerns task = true := by simpa using hconcerns
  split
  · -- the task's submission
    refine ⟨?_, hinv.cut, hrows.journals hinv.journals⟩
    dsimp only
    omega
  · rename_i hop
    have hown := hinv.journals _ j hj hunapplied hconcerns hop
    have hmoved := hout.conserves hown hconcerns
    refine ⟨?_, fun hsource => ?_, hrows.journals hinv.journals⟩
    · simp only [AuditedTask.charge]
      omega
    · have hcut : j.cutOff s.db = 0 := if_neg (hown.source ▸ hsource)
      rw [hcut]
      simpa using hinv.cut hsource

/-- A reservation: persisted and applied in one transaction, and never cut. -/
theorem taskInv_reserve (hown : OwnJournal task journal.toJournalFact)
    (hconcerns : journal.concerns task = true) (hop : journal.operation ≠ .settle) :
    TaskInv task initial (s.charge task (outboxStep s.db (.reserve journal))) := by
  simp only [outboxStep]
  cases hres : reserveTaskSettlementJournal s.db journal with
  | error e => exact taskInv_idle hinv
  | ok out =>
    obtain ⟨stored, db'⟩ := out
    obtain ⟨_, hpos, db₁, ensured, now, hens, happly⟩ := reserveTaskSettlementJournal_ok hres
    obtain ⟨old, h⟩ := ensureTaskSettlementJournalTx_ok hens
    have hmid := taskInv_apply (taskInv_quiet hinv h.balance_eq (h.issuedRows hown))
      journal.requestId
    have hrow : db₁.journals.get? journal.requestId = some ensured :=
      (h.rows journal.requestId).trans (if_pos rfl)
    have hcut : journal.cutOff db₁ = 0 := by
      have hle := balance_subscription_nonpos db₁ journal.subscriptionId
      unfold cutOff
      split
      · omega
      · rfl
    have hdb' : applyStep db₁ journal.requestId = db' := by
      simp [applyStep, happly]
    -- what the two halves took is what the transaction took
    have hsame : auditApply task (s.charge task db₁) journal.requestId = s.charge task db' := by
      unfold auditApply
      simp [AuditedTask.charge, hrow, hdb', h.stored_fact.1, hconcerns, hop, hcut, h.balance_eq]
    rw [hsame] at hmid
    exact hmid

theorem taskInv_outbox (honly : OutboxOnly s.db db') :
    TaskInv task initial (s.charge task db') := by
  refine taskInv_quiet hinv honly.balance_eq fun k new hnew hunapplied => .inl ?_
  obtain ⟨old, hold, hfact, happlied⟩ := honly.rows k new hnew
  exact ⟨old, hold, hfact, happlied.trans hunapplied⟩

/-- **One transaction.** -/
theorem taskInv_step (step : TaskStep) : TaskInv task initial (taskAudit task s step) := by
  cases step with
  | recalculate quota actualQuota log =>
    show TaskInv task initial (s.charge task (taskStep task s.db _))
    unfold taskStep
    dsimp only
    split
    · exact taskInv_idle hinv
    split
    · exact taskInv_confirm hinv _ _ _
    · exact taskInv_ensure hinv ⟨rfl, rfl, rfl, rfl, rfl, rfl⟩
  | refund quota log =>
    show TaskInv task initial (s.charge task (taskStep task s.db _))
    unfold taskStep
    dsimp only
    split
    · exact taskInv_confirm hinv _ _ _
    · exact taskInv_ensure hinv ⟨rfl, rfl, rfl, rfl, rfl, (zero_sub quota).symm⟩
  | reserve quota target log =>
    show TaskInv task initial (s.charge task (taskStep task s.db _))
    unfold taskStep
    dsimp only
    split
    · exact taskInv_idle hinv
    · refine taskInv_reserve hinv ⟨rfl, rfl, rfl, rfl, rfl, rfl⟩ ?_ ?_
      · simp [concerns, reserveTaskJournal]
      · simp [reserveTaskJournal]
  | sweep step =>
    cases step with
    | apply id => exact taskInv_apply hinv id
    | logDone id => exact taskInv_outbox hinv (markTaskSettlementLogDone_outboxOnly s.db id)
    | delete id => exact taskInv_outbox hinv (deleteTaskSettlementJournal_outboxOnly s.db id)

end

end Step

/-! ### Whole runs -/

/-- **Conservation.** However stale copies, recalculations, refunds, reservations and sweeps
    interleave, the operations on a task took from its funding source what the quota grew by,
    apart from what its submission set, and what the floor of a subscription cut off. -/
theorem task_money_conserved (task : Task) (db : Database)
    (hfirst : ∀ k j, db.journals.get? k = some j → j.applied = false →
      j.concerns task = true → j.operation = .settle) (steps : List TaskStep) :
    let s := run (taskAudit task) { db := db } steps
    s.net = balance s.db (.taskQuota task.id) - balance db (.taskQuota task.id) - s.submitted +
      s.cut ∧ (task.billingSource ≠ .subscription → s.cut = 0) := by
  have hinit : TaskInv task (balance db (.taskQuota task.id)) { db := db } := by
    refine ⟨by simp, fun _ => rfl, fun k j hj hunapplied hconcerns hop => ?_⟩
    exact absurd (hfirst k j hj hunapplied hconcerns) hop
  have hinv : TaskInv task (balance db (.taskQuota task.id))
    (run (taskAudit task) { db := db } steps) :=
    invariant_run (I := TaskInv task (balance db (.taskQuota task.id)))
      (fun _ step hI => taskInv_step hI step) _ steps hinit
  exact ⟨hinv.conserved, hinv.cut⟩

/-- Two pollers with the same copy: one recalculates to 30, the other refunds. -/
def stalePollers : List TaskStep :=
  [.recalculate 100 30 ⟨1⟩, .refund 100 ⟨1⟩,
    .sweep (.apply (recalculateOperationId 1)), .sweep (.apply (refundOperationId (.task, 1)))]

/-- The recalculation gives back 70, and the refund of the stale 100 is refused. -/
theorem stalePollers_conserved :
    let s := run (taskAudit chargedTask) { db := chargedDatabase } stalePollers
    s.net = balance s.db (.taskQuota 1) - balance chargedDatabase (.taskQuota 1) - s.submitted +
      s.cut ∧ (chargedTask.billingSource ≠ .subscription → s.cut = 0) :=
  task_money_conserved chargedTask chargedDatabase (fun _ _ hj => by cases hj) stalePollers

example : (run (taskAudit chargedTask) { db := chargedDatabase } stalePollers).net = -70 := by
  decide

/-- A task that was charged 100 to a subscription. -/
def subscriptionTask : Task :=
  { id := 1, userId := 1, quota := 100, billingSource := .subscription, subscriptionId := 1 }

/-- The subscription's usage was reset since. -/
def resetDatabase : Database :=
  { subscriptions := .ofList _ [newSubscription]
    tasks := .ofList _ [subscriptionTask] }

/-- **The corrections are needed.** After the reset the refund takes 100 off the quota and gives
    nothing back. And a submission that is pending at the start sets the quota of its task, here to
    30. -/
theorem refund_after_reset :
    (let s := run (taskAudit subscriptionTask) { db := resetDatabase }
      [.refund 100 ⟨1⟩, .sweep (.apply (refundOperationId (.task, 1)))]
    s.net = 0 ∧ s.submitted = 0 ∧
      balance s.db (.taskQuota 1) - balance resetDatabase (.taskQuota 1) = -100) ∧
    let s := run (taskAudit { id := 1, userId := 1, quota := 0 }) { db := submissionStored 30 }
      [.sweep (.apply (taskSubmissionFact 30).requestId)]
    s.net = 0 ∧ s.cut = 0 ∧
      balance s.db (.taskQuota 1) - balance (submissionStored 30) (.taskQuota 1) = 30 := by
  decide

end TokenGateway.Billing
