import TokenGateway.Billing.Balance

namespace TokenGateway.Billing

open Base

/-!
# Invoice expense confirmations on tasks

`model/organization_invoice_task_expense.go`: the confirmation kept on a task row.  It outlives
the settlement journal, and so doubles as the receipt of a recalculation or a refund.

* `confirmTaskInvoiceExpenseTx` — write a confirmation, never over a competing one;
* `taskInvoiceExpenseReceiptTx` — does the row confirm this journal as applied;
* `markTaskInvoiceExpenseAppliedTx` — the journal moved its money.

Every function here changes the `expense` of task rows only (`ExpenseOnly`).
-/

/-! ### Task and Midjourney rows alike -/

variable (db : Database)

/-- The row of a settlement entity. -/
def entityRow : SettlementEntity → Int → Option Task
  | .task, id => db.tasks.get? id
  | .midjourney, id => db.midjourneys.get? id
  | _, _ => none

/-- Write the row of a settlement entity. -/
def setEntityRow : SettlementEntity → Task → Database
  | .task, row => { db with tasks := db.tasks.set row }
  | .midjourney, row => { db with midjourneys := db.midjourneys.set row }
  | _, _ => db

/-- The text of an entity type, as error messages quote it. -/
def SettlementEntity.name : SettlementEntity → String
  | .absent => ""
  | .task => "task"
  | .midjourney => "midjourney"
  | .other name => name

/-- Update a row that may be missing, as an SQL `UPDATE` does. -/
def updateEntityRow (entity : SettlementEntity) (id : Int) (f : Task → Task) : Database :=
  match entityRow db entity id with
  | some row => setEntityRow db entity (f row)
  | none => db

/-! ### Confirmation -/

/-- A source that corrects an earlier confirmation: the operation id of a refund. -/
def isRefundSource (source : String) : Bool :=
  "task-refund:".toList.isPrefixOf source.toList ||
    "midjourney-refund:".toList.isPrefixOf source.toList

/-- A competing confirmation is in the way: only a refund may correct one. -/
def expenseConflicts (existing : TaskInvoiceExpense) (quota : Int) (source : String) : Bool :=
  existing.invoiceExpenseQuota.isSome && (quota ≠ 0 || !isRefundSource source)

/-- The expense columns a confirmation writes. -/
def confirmedExpense (existing : TaskInvoiceExpense) (quota : Int) (source : String)
    (applied : Bool) : TaskInvoiceExpense :=
  { existing with
    invoiceExpenseApplied := applied
    invoiceExpenseQuota := some quota
    invoiceExpenseSource := source }

/-- `confirmTaskInvoiceExpenseTx`: repeating a confirmation changes nothing. -/
def confirmTaskInvoiceExpenseTx (entity : SettlementEntity) (id quota : Int)
    (source : String) (expectedUser : Int) (applied : Bool) : Except BillingError Database :=
  if id ≤ 0 ∨ quota < 0 ∨ maxWalletQuota < quota ∨ source = "" then
    .error (.text "invalid task invoice expense confirmation")
  else if entity ≠ .task ∧ entity ≠ .midjourney then
    let name := entity.name
    .error (.text s!"unsupported invoice expense entity \"{name}\"")
  else match entityRow db entity id with
    | none => .error .recordNotFound
    | some row =>
        if 0 < expectedUser ∧ row.userId ≠ expectedUser then
          .error (.taskSettlementJournalConflict "")
        else if row.expense.invoiceExpenseQuota = some quota ∧
          row.expense.invoiceExpenseSource = source then .ok db
        else if expenseConflicts row.expense quota source then
          .error (.taskSettlementJournalConflict "")
        else .ok (setEntityRow db entity
          { row with expense := confirmedExpense row.expense quota source applied })

/-- `confirmOrganizationInvoiceJournalExpenseTx`: a recalculation or refund of an entity, or a
    journal with an invoice intent, confirms its final amount. -/
def confirmOrganizationInvoiceJournalExpenseTx (j : TaskSettlementJournal) :
    Except BillingError Database :=
  match j.invoiceExpenseQuota with
  | some quota =>
      if quota < 0 ∨ maxWalletQuota < quota ∨ quota ≠ j.finalQuota then
        .error (.text "invalid invoice task settlement quota")
      else confirmTaskInvoiceExpenseTx db j.invoiceTaskEntity j.invoiceTaskId j.finalQuota
        j.requestId j.userId j.applied
  | none =>
      if j.entityType = .absent ∨ (j.operation ≠ .recalculate ∧ j.operation ≠ .refund) then .ok db
      else confirmTaskInvoiceExpenseTx db j.entityType j.entityId j.entityFinalQuota j.requestId
        j.userId j.applied

/-! ### The receipt -/

/-- The entity whose row carries the receipt of a journal. -/
def JournalFact.receiptEntity (j : JournalFact) : SettlementEntity × Int :=
  match j.invoiceExpenseQuota with
  | some _ => (j.invoiceTaskEntity, j.invoiceTaskId)
  | none => (j.entityType, j.entityId)

/-- The amount a receipt of the journal confirms. -/
def JournalFact.receiptQuota (j : JournalFact) : Int :=
  match j.invoiceExpenseQuota with
  | some quota => quota
  | none => j.entityFinalQuota

/-- An expense confirms the journal as applied. -/
def confirmsApplied (expense : TaskInvoiceExpense) (j : TaskSettlementJournal) : Bool :=
  expense.invoiceExpenseApplied && expense.invoiceExpenseQuota = some j.receiptQuota &&
    expense.invoiceExpenseSource = j.requestId

/-- `taskInvoiceExpenseReceiptTx`: a missing row scans as an empty expense. -/
def taskInvoiceExpenseReceiptTx (j : TaskSettlementJournal) : Except BillingError Bool :=
  let (entity, id) := j.receiptEntity
  if entity = .absent ∨ id ≤ 0 then .ok false
  else if entity ≠ .task ∧ entity ≠ .midjourney then .error (.taskSettlementJournalConflict "")
  else match entityRow db entity id with
    | none => .ok false
    | some row => .ok (confirmsApplied row.expense j)

def markTaskInvoiceExpenseAppliedTx (j : TaskSettlementJournal) : Except BillingError Database :=
  if j.invoiceExpenseQuota = none ∧ j.operation ≠ .recalculate ∧ j.operation ≠ .refund then .ok db
  else
    let (entity, id) := j.receiptEntity
    if entity = .absent ∨ id ≤ 0 then .ok db
    else if entity ≠ .task ∧ entity ≠ .midjourney then .error (.taskSettlementJournalConflict "")
    else .ok (updateEntityRow db entity id fun row =>
      if row.expense.invoiceExpenseSource = j.requestId then
        { row with expense := { row.expense with invoiceExpenseApplied := true } }
      else row)

/-- The entity whose row keeps the origin time of a submission. -/
def originEntity (j : TaskSettlementJournal) : SettlementEntity × Int :=
  if j.invoiceTaskEntity = .absent then (j.entityType, j.entityId)
  else (j.invoiceTaskEntity, j.invoiceTaskId)

/-- `recordOrganizationInvoiceTaskOriginTx`: the time of the submission log is kept once. -/
def recordOrganizationInvoiceTaskOriginTx (j : TaskSettlementJournal) :
    Except BillingError Database :=
  match j.logPayload with
  | none => .ok db
  | some params =>
      let (entity, id) := originEntity j
      if j.operation ≠ .settle ∨ entity = .absent ∨ id ≤ 0 ∨ params.createdAt ≤ 0 then .ok db
      else if entity ≠ .task ∧ entity ≠ .midjourney then
        .error (.taskSettlementJournalConflict "")
      else .ok (updateEntityRow db entity id fun row =>
        if row.userId = j.userId ∧ row.expense.invoiceOriginAt = 0 then
          { row with expense := { row.expense with invoiceOriginAt := params.createdAt } }
        else row)

/-! ### Only the expense columns change -/

variable {db} {entity : SettlementEntity} {id : Int}

/-- A task row without its expense columns. -/
def stripExpense (row : Task) : Task := { row with expense := {} }

/-- `db'` differs from `db` in the expense columns of task rows alone. -/
structure ExpenseOnly (db db' : Database) : Prop where
  rows : ∀ entity id, (entityRow db' entity id).map stripExpense =
    (entityRow db entity id).map stripExpense
  rest : db' = { db with tasks := db'.tasks, midjourneys := db'.midjourneys }

namespace ExpenseOnly

theorem refl (db : Database) : ExpenseOnly db db := ⟨fun _ _ => rfl, rfl⟩

private theorem column_eq {t t' : Table Task Task.id}
    (h : ∀ id, (t'.get? id).map stripExpense = (t.get? id).map stripExpense) :
    t'.column Task.quota = t.column Task.quota := by
  funext id
  have hid := congrArg (Option.map Task.quota) (h id)
  rw [Option.map_map, Option.map_map] at hid
  exact congrArg (fun o => o.getD 0) hid

theorem balance_eq {db db' : Database} (h : ExpenseOnly db db') : balance db' = balance db := by
  have htask : db'.tasks.column Task.quota = db.tasks.column Task.quota :=
    column_eq fun id => h.rows .task id
  have hmj : db'.midjourneys.column Task.quota = db.midjourneys.column Task.quota :=
    column_eq fun id => h.rows .midjourney id
  rw [h.rest]
  funext a
  cases a with
  | taskQuota id => exact congrFun htask id
  | midjourneyQuota id => exact congrFun hmj id
  | _ => rfl

end ExpenseOnly

theorem entityRow_id {row : Task} (h : entityRow db entity id = some row) : row.id = id := by
  cases entity with
  | task | midjourney => exact Table.key_of_get? h
  | absent | other name => cases h

theorem entityRow_setEntityRow {row : Task} (hentity : entity = .task ∨ entity = .midjourney)
    (e : SettlementEntity) (id : Int) :
    entityRow (setEntityRow db entity row) e id
      = if e = entity ∧ id = row.id then some row else entityRow db e id := by
  rcases hentity with rfl | rfl
  all_goals
    cases e <;> simp [entityRow, setEntityRow, Table.get?_set, eq_comm]

theorem entity_of_entityRow {row : Task} (h : entityRow db entity id = some row) :
    entity = .task ∨ entity = .midjourney := by
  cases entity with
  | task => exact .inl rfl
  | midjourney => exact .inr rfl
  | absent | other name => cases h

theorem expenseOnly_setEntityRow {row row' : Task} (h : entityRow db entity id = some row)
    (hrow : stripExpense row' = stripExpense row) :
    ExpenseOnly db (setEntityRow db entity row') := by
  have hid : row.id = id := entityRow_id h
  have hid' : row'.id = row.id := by
    show (stripExpense row').id = (stripExpense row).id
    rw [hrow]
  have hentity := entity_of_entityRow h
  refine ⟨fun e i => ?_, ?_⟩
  · rw [entityRow_setEntityRow hentity]
    by_cases hei : e = entity ∧ i = row'.id
    · obtain ⟨rfl, rfl⟩ := hei
      rw [if_pos ⟨rfl, rfl⟩, hid', hid, h, Option.map_some, Option.map_some, hrow]
    · rw [if_neg hei]
  · rcases hentity with rfl | rfl <;> rfl

/-- An update that keeps `g` in every row keeps it in the table. -/
theorem map_updateEntityRow {γ : Type} (g : Task → γ) (db : Database)
    (entity : SettlementEntity) (id : Int) (f : Task → Task) (hid : ∀ row, (f row).id = row.id)
    (hg : ∀ row, g (f row) = g row) (e : SettlementEntity) (i : Int) :
    (entityRow (updateEntityRow db entity id f) e i).map g = (entityRow db e i).map g := by
  unfold updateEntityRow
  split
  · rename_i row h
    rw [entityRow_setEntityRow (entity_of_entityRow h)]
    by_cases hei : e = entity ∧ i = (f row).id
    · obtain ⟨rfl, rfl⟩ := hei
      rw [if_pos ⟨rfl, rfl⟩, hid, entityRow_id h, h, Option.map_some, Option.map_some, hg]
    · rw [if_neg hei]
  · rfl

theorem expenseOnly_updateEntityRow (db : Database) (entity : SettlementEntity) (id : Int)
    (f : Task → Task) (hf : ∀ row, stripExpense (f row) = stripExpense row) :
    ExpenseOnly db (updateEntityRow db entity id f) := by
  unfold updateEntityRow
  split
  · rename_i row h
    exact expenseOnly_setEntityRow h (hf row)
  · exact .refl db

/-! ### What each function wrote -/

variable {db' : Database} {j : TaskSettlementJournal}

section

variable {source : String} {applied : Bool} {expectedUser quota : Int}
  (h : confirmTaskInvoiceExpenseTx db entity id quota source expectedUser applied = .ok db')
include h

/-- A committed confirmation repeated the one on the row, or wrote it where nothing competes. -/
theorem confirmTaskInvoiceExpenseTx_ok :
    0 < id ∧ ∃ row, entityRow db entity id = some row ∧
      ((row.expense.invoiceExpenseQuota = some quota ∧ row.expense.invoiceExpenseSource = source ∧
        db' = db) ∨
        (¬ (row.expense.invoiceExpenseQuota = some quota ∧
          row.expense.invoiceExpenseSource = source) ∧
          expenseConflicts row.expense quota source = false ∧
          db' = setEntityRow db entity
            { row with expense := confirmedExpense row.expense quota source applied })) := by
  unfold confirmTaskInvoiceExpenseTx at h
  split_ifs at h with hargs
  split at h
  · cases h
  rename_i row hrow
  refine ⟨by omega, row, hrow, ?_⟩
  split at h
  · cases h
  split at h
  · rename_i hsame
    cases h
    exact .inl ⟨hsame.1, hsame.2, rfl⟩
  · rename_i hnew
    split_ifs at h with hfree
    cases h
    exact .inr ⟨hnew, by simpa using hfree, rfl⟩

theorem confirmTaskInvoiceExpenseTx_expenseOnly : ExpenseOnly db db' := by
  obtain ⟨_, row, hrow, ⟨_, _, rfl⟩ | ⟨_, _, rfl⟩⟩ := confirmTaskInvoiceExpenseTx_ok h
  · exact .refl db'
  · exact expenseOnly_setEntityRow hrow rfl

end

theorem confirmOrganizationInvoiceJournalExpenseTx_expenseOnly
    (h : confirmOrganizationInvoiceJournalExpenseTx db j = .ok db') : ExpenseOnly db db' := by
  unfold confirmOrganizationInvoiceJournalExpenseTx at h
  split at h
  · split_ifs at h
    exact confirmTaskInvoiceExpenseTx_expenseOnly h
  split at h
  · cases h
    exact .refl db
  · exact confirmTaskInvoiceExpenseTx_expenseOnly h

theorem markTaskInvoiceExpenseAppliedTx_expenseOnly
    (h : markTaskInvoiceExpenseAppliedTx db j = .ok db') : ExpenseOnly db db' := by
  unfold markTaskInvoiceExpenseAppliedTx at h
  split at h
  · cases h
    exact .refl db
  dsimp only at h
  split at h
  · cases h
    exact .refl db
  split_ifs at h
  cases h
  refine expenseOnly_updateEntityRow _ _ _ _ fun row => ?_
  split <;> rfl

theorem recordOrganizationInvoiceTaskOriginTx_expenseOnly
    (h : recordOrganizationInvoiceTaskOriginTx db j = .ok db') : ExpenseOnly db db' := by
  unfold recordOrganizationInvoiceTaskOriginTx at h
  split at h
  · cases h
    exact .refl db
  dsimp only at h
  split at h
  · cases h
    exact .refl db
  split_ifs at h
  cases h
  refine expenseOnly_updateEntityRow _ _ _ _ fun row => ?_
  split <;> rfl

/-- The columns that confirm an amount. -/
def TaskInvoiceExpense.confirmation (e : TaskInvoiceExpense) : Bool × Option Int × String :=
  (e.invoiceExpenseApplied, e.invoiceExpenseQuota, e.invoiceExpenseSource)

theorem recordOrganizationInvoiceTaskOriginTx_confirmation
    (h : recordOrganizationInvoiceTaskOriginTx db j = .ok db') (entity : SettlementEntity)
    (id : Int) :
    (entityRow db' entity id).map (fun row => row.expense.confirmation)
      = (entityRow db entity id).map (fun row => row.expense.confirmation) := by
  unfold recordOrganizationInvoiceTaskOriginTx at h
  split at h
  · cases h
    rfl
  dsimp only at h
  split at h
  · cases h
    rfl
  split_ifs at h
  cases h
  refine map_updateEntityRow _ _ _ _ _ (fun row => ?_) (fun row => ?_) _ _
  · split <;> rfl
  · split <;> rfl

/-- The row that carries the receipt of `j` confirms it as applied. -/
def Confirmed (db : Database) (j : TaskSettlementJournal) : Prop :=
  ∃ row, entityRow db j.receiptEntity.1 j.receiptEntity.2 = some row ∧
    confirmsApplied row.expense j = true

theorem taskInvoiceExpenseReceiptTx_ok {already : Bool}
    (h : taskInvoiceExpenseReceiptTx db j = .ok already) :
    (already = true ∧ Confirmed db j) ∨ (already = false ∧
      (0 < j.receiptEntity.2 → ¬ Confirmed db j)) := by
  unfold taskInvoiceExpenseReceiptTx at h
  dsimp only at h
  split at h
  · rename_i hskip
    cases h
    refine .inr ⟨rfl, ?_⟩
    rintro hpos ⟨row, hrow, _⟩
    rcases hskip with habs | hle
    · rw [habs] at hrow
      cases hrow
    · omega
  split at h
  · cases h
  split at h
  · rename_i hnone
    cases h
    refine .inr ⟨rfl, ?_⟩
    rintro _ ⟨row, hrow, _⟩
    rw [hnone] at hrow
    cases hrow
  · rename_i row hrow
    cases h
    cases hc : confirmsApplied row.expense j with
    | true => exact .inl ⟨rfl, row, hrow, hc⟩
    | false =>
      refine .inr ⟨rfl, ?_⟩
      rintro _ ⟨row', hrow', hc'⟩
      rw [hrow] at hrow'
      cases hrow'
      cases hc.symm.trans hc'

/-- A receipt is read off the confirmation columns alone. -/
theorem confirmed_congr
    (h : ∀ entity id, (entityRow db' entity id).map (fun row => row.expense.confirmation)
      = (entityRow db entity id).map (fun row => row.expense.confirmation))
    (j : TaskSettlementJournal) (hc : Confirmed db' j) : Confirmed db j := by
  obtain ⟨row', hrow', hconf⟩ := hc
  have hmap := h j.receiptEntity.1 j.receiptEntity.2
  rw [hrow'] at hmap
  obtain ⟨row, hrow, hsame⟩ := Option.map_eq_some_iff.mp hmap.symm
  refine ⟨row, hrow, ?_⟩
  simp only [TaskInvoiceExpense.confirmation, Prod.mk.injEq] at hsame
  unfold confirmsApplied at hconf ⊢
  rw [hsame.1, hsame.2.1, hsame.2.2]
  exact hconf

end TokenGateway.Billing
