import TokenGateway.Billing.TaskBilling

namespace TokenGateway.Billing

open Base Reseller Option

/-!
# Receipts that outlive the outbox

After its row is deleted, a settlement journal is remembered by the receipt of its personal fact,
or by the expense confirmation on the row of its entity.  A later refund may overwrite the
confirmation; this file follows what is left of it then.

* `ReceiptView` / `ViewStep` — what a transaction may do to the confirmation on a row;
* `Held` — the row still confirms an operation, or keeps it from being persisted again;
* `held_step` — no transaction loses that;
* `Issued` — what the callers promise about the ids of refunds.
-/

/-! ### The confirmation on a row -/

variable {db db' : Database}

/-- The journal confirms an expense when it is persisted. -/
def JournalFact.confirmsExpense (j : JournalFact) : Prop :=
  j.invoiceExpenseQuota.isSome ∨ (j.entityType ≠ .absent ∧
    (j.operation = .recalculate ∨ j.operation = .refund))

/-- The confirmation columns of an entity row, and whether it has personal pricing. -/
structure ReceiptView where
  applied : Bool
  quota : Option Int
  source : String
  personal : Bool

def Task.receiptView (row : Task) : ReceiptView :=
  { applied := row.expense.invoiceExpenseApplied
    quota := row.expense.invoiceExpenseQuota
    source := row.expense.invoiceExpenseSource
    personal := row.personalPricing.isSome }

/-- The confirmation kept for an entity. -/
def receiptView (db : Database) (entity : SettlementEntity × Int) : Option ReceiptView :=
  (entityRow db entity.1 entity.2).map Task.receiptView

/-- What a transaction may do to the confirmation of an entity: leave it, set its flag, or confirm
    another amount where nothing competes. Only a refund corrects one, and without personal pricing
    it goes by the entity's own id. -/
inductive ViewStep (entity : SettlementEntity × Int) : ReceiptView → ReceiptView → Prop
  | same (v : ReceiptView) : ViewStep entity v v
  | mark (v : ReceiptView) : ViewStep entity v { v with applied := true }
  | confirm (v : ReceiptView) (applied : Bool) (quota : Int) (source : String)
      (hnew : ¬ (v.quota = some quota ∧ v.source = source))
      (hfree : v.quota.isSome → quota = 0 ∧ isRefundSource source = true ∧
        (v.personal = false → source = refundOperationId entity)) :
      ViewStep entity v { v with applied := applied, quota := some quota, source := source }

/-- Every confirmation moves by a step. -/
def ViewMoves (db db' : Database) : Prop :=
  ∀ entity v, receiptView db entity = some v → ∃ v', receiptView db' entity = some v' ∧
    ViewStep entity v v'

theorem viewMoves_of_eq (h : ∀ entity, receiptView db' entity = receiptView db entity) :
    ViewMoves db db' :=
  fun entity v hv => ⟨v, (h entity).trans hv, .same v⟩

/-! ### What holds of an operation -/

variable {applied : Bool} {v : ReceiptView}

section Operation

variable (k : String) (entity : SettlementEntity × Int) (quota : Int)

/-- The row confirms `quota` for the operation `k`; the id of a full refund is the entity's. -/
structure Owns (applied : Bool) (v : ReceiptView) : Prop where
  amount : v.quota = some quota
  source : v.source = k
  flag : applied = true → v.applied = true
  named : quota = 0 → isRefundSource k = true → v.personal = false ∧ k = refundOperationId entity

/-- The row has another confirmation, which `k` cannot correct. -/
structure Blocks (v : ReceiptView) : Prop where
  taken : v.quota.isSome
  other : ¬ (v.quota = some quota ∧ v.source = k)
  final : ¬ (quota = 0 ∧ isRefundSource k = true)

/-- The operation `k` is confirmed on its entity, or cannot be persisted any more. -/
def Held (applied : Bool) (db : Database) : Prop :=
  0 < entity.2 ∧ ∃ v, receiptView db entity = some v ∧
    (Owns k entity quota applied v ∨ Blocks k quota v)

variable {k entity quota}

theorem viewStep_held {v' : ReceiptView} (hstep : ViewStep entity v v')
    (h : Owns k entity quota applied v ∨ Blocks k quota v) :
    Owns k entity quota applied v' ∨ Blocks k quota v' := by
  cases hstep with
  | same => exact h
  | mark =>
    rcases h with hown | hblock
    · exact .inl ⟨hown.amount, hown.source, fun _ => rfl, hown.named⟩
    · exact .inr ⟨hblock.taken, hblock.other, hblock.final⟩
  | confirm applied' quota' source hnew hfree =>
    rcases h with hown | hblock
    · obtain ⟨rfl, hrefund, hname⟩ := hfree (by rw [hown.amount]; rfl)
      by_cases hfinal : quota = 0 ∧ isRefundSource k = true
      · -- the entity's own refund id is `k` itself, which repeats the confirmation
        obtain ⟨hpersonal, hk⟩ := hown.named hfinal.1 hfinal.2
        exact absurd ⟨hown.amount.trans (by rw [hfinal.1]),
          hown.source.trans (hk.trans (hname hpersonal).symm)⟩ hnew
      · refine .inr ⟨rfl, ?_, hfinal⟩
        rintro ⟨hq, hs⟩
        refine hnew ⟨hown.amount.trans hq.symm, hown.source.trans hs.symm⟩
    · obtain ⟨rfl, hrefund, _⟩ := hfree hblock.taken
      refine .inr ⟨rfl, ?_, hblock.final⟩
      rintro ⟨hq, hs⟩
      exact hblock.final ⟨(Option.some.inj hq).symm, hs ▸ hrefund⟩

/-- **No transaction loses the memory of an operation.** -/
theorem held_step (hmoves : ViewMoves db db')
    (h : Held k entity quota applied db) : Held k entity quota applied db' := by
  obtain ⟨hid, v, hv, hheld⟩ := h
  obtain ⟨v', hv', hstep⟩ := hmoves entity v hv
  exact ⟨hid, v', hv', viewStep_held hstep hheld⟩

end Operation

/-! ### What the callers promise -/

/-- The ids of refunds: on an entity with personal pricing they belong to personal facts, on any
    other one there is only the id made from the entity. -/
def Issued (db : Database) (j : TaskSettlementJournal) : Prop :=
  j.confirmsExpense → isRefundSource j.requestId = true →
    ∀ v, receiptView db j.receiptEntity = some v →
      (v.personal = true ∧ j.personalFact.isSome) ∨
        (v.personal = false ∧ j.personalFact = none ∧
          j.requestId = refundOperationId j.receiptEntity)

/-- `RefundTaskQuota` keeps the promise: it takes its other branch for a task with personal
    pricing. -/
theorem refundTaskJournal_issued {task : Task} {log : LogPayload}
    (hplain : ∀ row, db.tasks.get? task.id = some row → row.personalPricing = none) :
    Issued db (refundTaskJournal task log) := by
  intro _ _ v hv
  obtain ⟨row, hrow, rfl⟩ := map_eq_some_iff.mp hv
  exact .inr ⟨by simp [Task.receiptView, hplain row hrow], rfl, rfl⟩

theorem issued_of_not_refund {journal : TaskSettlementJournal}
    (h : isRefundSource journal.requestId = false) : Issued db journal := by
  intro _ hrefund
  cases h.symm.trans hrefund

/-! ### What the transactions do to the confirmations -/

variable {entity : SettlementEntity} {j : TaskSettlementJournal}

/-- The confirmation is read off the confirmation columns and the pricing of a row. -/
theorem receiptView_congr {entity : SettlementEntity × Int}
    (hrows : (entityRow db' entity.1 entity.2).map stripExpense =
      (entityRow db entity.1 entity.2).map stripExpense)
    (hconf : (entityRow db' entity.1 entity.2).map (fun row => row.expense.confirmation)
      = (entityRow db entity.1 entity.2).map (fun row => row.expense.confirmation)) :
    receiptView db' entity = receiptView db entity := by
  unfold receiptView
  cases h : entityRow db entity.1 entity.2 with
  | none =>
    rw [h, map_none, map_eq_none_iff] at hrows
    rw [hrows]
  | some row =>
    rw [h] at hrows hconf
    obtain ⟨row', hrow', hstrip⟩ := map_eq_some_iff.mp hrows
    rw [hrow'] at hconf ⊢
    have hpersonal : row'.personalPricing = row.personalPricing :=
      congrArg (·.personalPricing) hstrip
    simp only [map_some, Option.some.injEq, TaskInvoiceExpense.confirmation, Prod.mk.injEq] at hconf
    simp [Task.receiptView, hconf.1, hconf.2.1, hconf.2.2, hpersonal]

theorem receiptView_setEntityRow {row : Task} (hentity : entity = .task ∨ entity = .midjourney)
    (e : SettlementEntity × Int) :
    receiptView (setEntityRow db entity row) e
      = if e = (entity, row.id) then some row.receiptView else receiptView db e := by
  unfold receiptView
  rw [entityRow_setEntityRow hentity]
  by_cases he : e = (entity, row.id)
  · rw [if_pos he, he, if_pos ⟨rfl, rfl⟩]
    rfl
  · rw [if_neg he, if_neg fun hc => he (Prod.ext hc.1 hc.2)]

variable {id expectedUser : Int} {source : String}

/-- A committed confirmation: on its own row it stands now, and elsewhere nothing changed. -/
theorem confirmTaskInvoiceExpenseTx_view {quota : Int}
    (h : confirmTaskInvoiceExpenseTx db entity id quota source expectedUser applied = .ok db') :
    0 < id ∧ ∃ v v', receiptView db (entity, id) = some v ∧
      receiptView db' (entity, id) = some v' ∧
      (∀ e, e ≠ (entity, id) → receiptView db' e = receiptView db e) ∧
      ((v.quota = some quota ∧ v.source = source ∧ v' = v) ∨
        (¬ (v.quota = some quota ∧ v.source = source) ∧
          (v.quota.isSome → quota = 0 ∧ isRefundSource source = true) ∧
          v' = { v with applied := applied, quota := some quota, source := source })) := by
  obtain ⟨hid, row, hrow, hcase⟩ := confirmTaskInvoiceExpenseTx_ok h
  have hv : receiptView db (entity, id) = some row.receiptView := by
    unfold receiptView
    rw [hrow, map_some]
  refine ⟨hid, row.receiptView, ?_⟩
  rcases hcase with ⟨hq, hs, rfl⟩ | ⟨hnew, hfree, rfl⟩
  · exact ⟨_, hv, hv, fun _ _ => rfl, .inl ⟨hq, hs, rfl⟩⟩
  have hrowId : row.id = id := entityRow_id hrow
  have hset := @receiptView_setEntityRow db entity
    { row with expense := confirmedExpense row.expense quota source applied }
    (entity_of_entityRow hrow)
  refine ⟨_, hv, ?_, fun e he => ?_, .inr ⟨hnew, fun hsome => ?_, rfl⟩⟩
  · rw [hset, if_pos (by rw [← hrowId])]
    rfl
  · rw [hset, if_neg (by rw [← hrowId] at he; exact he)]
  · have hsome' : row.expense.invoiceExpenseQuota.isSome = true := hsome
    simpa [expenseConflicts, hsome'] using hfree

/-- A journal that confirms an expense does it on the row of its receipt. -/
theorem confirmOrganizationInvoiceJournalExpenseTx_ok
    (h : confirmOrganizationInvoiceJournalExpenseTx db j = .ok db') :
    (¬ j.confirmsExpense ∧ db' = db) ∨
      (j.confirmsExpense ∧ confirmTaskInvoiceExpenseTx db j.receiptEntity.1 j.receiptEntity.2
        j.receiptQuota j.requestId j.userId j.applied = .ok db') := by
  unfold confirmOrganizationInvoiceJournalExpenseTx at h
  unfold JournalFact.confirmsExpense JournalFact.receiptEntity JournalFact.receiptQuota
  split at h
  · rename_i quota hq
    split_ifs at h with hvalid
    have hfinal : quota = j.finalQuota := by omega
    refine .inr ⟨.inl (by rw [hq]; rfl), ?_⟩
    rw [hfinal]
    exact h
  · rename_i hq
    split at h
    · rename_i hskip
      cases h
      refine .inl ⟨?_, rfl⟩
      rintro (hsome | ⟨habs, hop⟩)
      · rw [hq] at hsome
        cases hsome
      · rcases hskip with hskip | ⟨hrec, href⟩
        · exact habs hskip
        · exact hop.elim hrec href
    · rename_i hgo
      rw [not_or, not_and_or, not_not, not_not] at hgo
      exact .inr ⟨.inr hgo, h⟩

/-- A committed confirmation moves the views by steps, when its id was issued by the rules. -/
theorem viewMoves_confirm {quota : Int}
    (h : confirmTaskInvoiceExpenseTx db entity id quota source expectedUser applied = .ok db')
    (hissued : isRefundSource source = true → ∀ v, receiptView db (entity, id) = some v →
      v.personal = false → source = refundOperationId (entity, id)) : ViewMoves db db' := by
  obtain ⟨_, v, v', hv, hv', hother, hcase⟩ := confirmTaskInvoiceExpenseTx_view h
  intro e w hw
  by_cases he : e = (entity, id)
  · subst he
    obtain rfl : v = w := Option.some.inj (hv.symm.trans hw)
    rcases hcase with ⟨_, _, rfl⟩ | ⟨hnew, hfree, rfl⟩
    · exact ⟨v', hv', .same v'⟩
    · refine ⟨_, hv', .confirm v applied quota source hnew fun hsome => ?_⟩
      obtain ⟨hzero, hrefund⟩ := hfree hsome
      exact ⟨hzero, hrefund, hissued hrefund v hv⟩
  · exact ⟨w, (hother e he).trans hw, .same w⟩

theorem receiptView_updateEntityRow (db : Database) (entity : SettlementEntity) (id : Int)
    (f : Task → Task) (hid : ∀ row, (f row).id = row.id) (e : SettlementEntity × Int) :
    receiptView (updateEntityRow db entity id f) e
      = if e = (entity, id) then (entityRow db entity id).map fun row => (f row).receiptView
        else receiptView db e := by
  unfold updateEntityRow
  split
  · rename_i row hrow
    rw [receiptView_setEntityRow (entity_of_entityRow hrow), hid, entityRow_id hrow, hrow, map_some]
  rename_i hnone
  split
  · rename_i he
    unfold receiptView
    rw [he, hnone]
    rfl
  · rfl

/-- What a journal does that marks its receipt: the flag is set if the row was confirmed by it. -/
theorem markTaskInvoiceExpenseAppliedTx_ok (hconfirms : j.confirmsExpense)
    (h : markTaskInvoiceExpenseAppliedTx db j = .ok db')
    (hpos : 0 < j.receiptEntity.2) (hv : receiptView db j.receiptEntity = some v) :
    receiptView db' j.receiptEntity = some (if v.source =
      j.requestId then { v with applied := true } else v) := by
  obtain ⟨row, hrow, rfl⟩ := map_eq_some_iff.mp hv
  have hreal := entity_of_entityRow hrow
  have hmarks : ¬ (j.invoiceExpenseQuota = none ∧ j.operation ≠ .recalculate ∧
    j.operation ≠ .refund) := by
    rintro ⟨hnone, hrec, href⟩
    rcases hconfirms with hsome | ⟨_, hop⟩
    · rw [hnone] at hsome
      cases hsome
    · exact hop.elim hrec href
  have hentity : ¬ (j.receiptEntity.1 = .absent ∨ j.receiptEntity.2 ≤ 0) := by
    rintro (habs | hle)
    · rw [habs] at hrow
      cases hrow
    · omega
  have hknown : ¬ (j.receiptEntity.1 ≠ .task ∧ j.receiptEntity.1 ≠ .midjourney) :=
    fun hne => hreal.elim hne.1 hne.2
  unfold markTaskInvoiceExpenseAppliedTx at h
  rw [if_neg hmarks] at h
  dsimp only at h
  rw [if_neg hentity, if_neg hknown] at h
  cases h
  rw [receiptView_updateEntityRow _ _ _ _ (fun row => by split <;> rfl), if_pos rfl, hrow]
  show some (Task.receiptView (if row.expense.invoiceExpenseSource = j.requestId then _ else _))
    = some (if row.expense.invoiceExpenseSource = j.requestId then _ else _)
  split <;> rfl

theorem viewMoves_markApplied (h : markTaskInvoiceExpenseAppliedTx db j = .ok db') :
    ViewMoves db db' := by
  unfold markTaskInvoiceExpenseAppliedTx at h
  split at h
  · cases h
    exact viewMoves_of_eq fun _ => rfl
  dsimp only at h
  split at h
  · cases h
    exact viewMoves_of_eq fun _ => rfl
  split at h
  · cases h
  cases h
  intro e v hv
  rw [receiptView_updateEntityRow _ _ _ _ (fun row => by split <;> rfl)]
  split_ifs with he
  · rw [he] at hv
    obtain ⟨row, hrow, rfl⟩ := map_eq_some_iff.mp hv
    rw [hrow, map_some]
    refine ⟨_, rfl, ?_⟩
    split
    · exact .mark row.receiptView
    · exact .same row.receiptView
  · exact ⟨v, hv, .same v⟩

/-- The operation that confirmed the row, or was kept from it, is remembered as applied. -/
theorem held_markApplied (hconfirms : j.confirmsExpense)
    (h : markTaskInvoiceExpenseAppliedTx db j = .ok db')
    (hheld : Held j.requestId j.receiptEntity j.receiptQuota false db) :
    Held j.requestId j.receiptEntity j.receiptQuota true db' := by
  obtain ⟨hpos, v, hv, hown | hblock⟩ := hheld
  · have hmark := markTaskInvoiceExpenseAppliedTx_ok hconfirms h hpos hv
    rw [if_pos hown.source] at hmark
    exact ⟨hpos, _, hmark, .inl ⟨hown.amount, hown.source, fun _ => rfl, hown.named⟩⟩
  · obtain ⟨v', hv', hstep⟩ := viewMoves_markApplied h j.receiptEntity v hv
    exact ⟨hpos, v', hv', viewStep_held hstep (.inr hblock)⟩

end TokenGateway.Billing
