import TokenGateway.Billing.Exact

namespace TokenGateway.Billing

open Base Reseller

/-!
# Outcomes of the journal transactions

* `Ensured` — what a committed `ensureTaskSettlementJournalTx` left behind;
* `ApplyOutcome` — the four ways `applyTaskSettlementJournal` commits: the row was applied
  before, a personal receipt proves it, the entity is at its target already, or the money
  moved now.
-/

/-! ### Applying -/

variable {db : Database}

theorem applyPersonalJournalTx_rest {db' : Database} {j : TaskSettlementJournal}
    (h : applyPersonalJournalTx db j = .ok db') :
    db' = { db with
      requests := db'.requests, events := db'.events, receipts := db'.receipts
      fundingSnapshots := db'.fundingSnapshots } := by
  unfold applyPersonalJournalTx at h
  split at h
  · cases h
    rfl
  · split_ifs at h
    rw [applyPersonalBillingFactTx_rest h]
    split <;> rfl

/-- What the end of an apply transaction wrote. -/
structure Finished (db : Database) (j : TaskSettlementJournal) (db' : Database) : Prop where
  journals : db'.journals = db.journals.set j.markApplied
  expense : ∃ db₁, applyPersonalJournalTx db j = .ok db₁ ∧
    markTaskInvoiceExpenseAppliedTx (writeJournal db₁ j.markApplied) j.markApplied = .ok db'

variable {stored : TaskSettlementJournal} {now : Bool}

theorem finishApplyTx_ok {j : TaskSettlementJournal} {now' : Bool}
    {db' : Database} (h : finishApplyTx db j now = .ok (stored, now', db')) :
    stored = j.markApplied ∧ now' = now ∧ Finished db j db' := by
  obtain ⟨db₁, hpersonal, h⟩ := seq_ok.mp h
  obtain ⟨db₂, hmark, h⟩ := seq_ok.mp h
  cases h
  refine ⟨rfl, rfl, ?_, db₁, hpersonal, hmark⟩
  rw [(markTaskInvoiceExpenseAppliedTx_expenseOnly hmark).rest,
    applyPersonalJournalTx_rest hpersonal]
  rfl

namespace Finished

variable {db' : Database} {j : TaskSettlementJournal}

theorem rest (h : Finished db j db') :
    db' = { db with
      tasks := db'.tasks, midjourneys := db'.midjourneys, journals := db'.journals
      requests := db'.requests, events := db'.events, receipts := db'.receipts
      fundingSnapshots := db'.fundingSnapshots } := by
  obtain ⟨db₁, hpersonal, hmark⟩ := h.expense
  rw [(markTaskInvoiceExpenseAppliedTx_expenseOnly hmark).rest,
    applyPersonalJournalTx_rest hpersonal]
  rfl

theorem balance_eq (h : Finished db j db') : balance db' = balance db := by
  obtain ⟨db₁, hpersonal, hmark⟩ := h.expense
  rw [(markTaskInvoiceExpenseAppliedTx_expenseOnly hmark).balance_eq,
    applyPersonalJournalTx_rest hpersonal]
  funext a
  cases a <;> rfl

/-- Entity rows keep everything but their expense columns. -/
theorem entityRows (h : Finished db j db') (entity : SettlementEntity) (id : Int) :
    (entityRow db' entity id).map stripExpense = (entityRow db entity id).map stripExpense := by
  obtain ⟨db₁, hpersonal, hmark⟩ := h.expense
  rw [(markTaskInvoiceExpenseAppliedTx_expenseOnly hmark).rows,
    applyPersonalJournalTx_rest hpersonal]
  cases entity <;> rfl

end Finished

/-- The entity of a journal is already at its target. -/
def AtTarget (db : Database) (j : JournalFact) : Prop :=
  ∃ row, entityRow db j.entityType j.entityId = some row ∧ row.quota = j.entityFinalQuota

/-- The entity of a journal has the expected quota; the quota of a personal journal's entity
    may have been staged. -/
def EntityReady (db : Database) (j : JournalFact) : Prop :=
  j.entityType = .absent ∨
    ∃ row, entityRow db j.entityType j.entityId = some row ∧
      ((row.quota = j.entityExpectedQuota ∧ row.quota ≠ j.entityFinalQuota) ∨
        (row.quota = j.entityFinalQuota ∧ j.personalFact.isSome))

/-- A receipt proves the journal's personal fact applied. -/
def Receipted (db : Database) (j : JournalFact) : Prop :=
  ∃ fact receipt, j.personalFact = some fact ∧ db.receipts.get? fact.operationId = some receipt ∧
    receipt.fact = fact

/-- How an apply transaction for the row `j` commits: whether it moved the money, and the
    database after it. -/
inductive ApplyOutcome (db : Database) (j : TaskSettlementJournal) : Bool → Database → Prop
  | already (happlied : j.applied = true) : ApplyOutcome db j false db
  | receipt (happlied : j.applied = false) (hreceipt : Receipted db j.toJournalFact) :
      ApplyOutcome db j false (writeJournal db j.markApplied)
  | atTarget {db'} (happlied : j.applied = false) (hfact : j.personalFact = none)
      (htarget : AtTarget db j.toJournalFact) (hfinish : Finished db j db') :
      ApplyOutcome db j false db'
  | moved {db₁ db'} (happlied : j.applied = false) (hnew : Unreceipted db j.toJournalFact)
      (hready : EntityReady db j.toJournalFact)
      (hvalid : validatePersonalJournalBalanceTx db j = .ok ())
      (hmove : moveMoneyTx db j = .ok db₁) (hfinish : Finished db₁ j db') :
      ApplyOutcome db j true db'

variable {db' : Database} {j : TaskSettlementJournal}

theorem taskSettlementEntityAtTarget_ok
    {atTarget : Bool} (h : taskSettlementEntityAtTarget db j = .ok atTarget) :
    (atTarget = true ∧ AtTarget db j.toJournalFact) ∨
      (atTarget = false ∧ (j.entityType = .absent ∨
        ∃ row, entityRow db j.entityType j.entityId = some row ∧
          row.quota = j.entityExpectedQuota ∧ row.quota ≠ j.entityFinalQuota)) := by
  unfold taskSettlementEntityAtTarget at h
  split at h
  · cases h
    exact .inr ⟨rfl, .inl (by assumption)⟩
  split at h
  · cases h
  split at h
  · cases h
  rename_i row hrow
  dsimp only at h
  split at h
  · cases h
    exact .inl ⟨rfl, row, hrow, by assumption⟩
  split at h
  · cases h
  rename_i hne hexp
  cases h
  exact .inr ⟨rfl, .inr ⟨row, hrow, not_not.mp hexp, hne⟩⟩

theorem restorePersonalJournalReceiptTx_ok {j j' : TaskSettlementJournal}
    (h : restorePersonalJournalReceiptTx db j = .ok (j', db')) :
    (j' = j ∧ db' = db ∧ Unreceipted db j.toJournalFact) ∨
      (j' = j.markApplied ∧ db' = writeJournal db j.markApplied ∧
        Receipted db j.toJournalFact) := by
  unfold restorePersonalJournalReceiptTx at h
  cases hf : j.personalFact with
  | none =>
    rw [hf] at h
    cases h
    exact .inl ⟨rfl, rfl, fun fact hfact => absurd (hf.symm.trans hfact) (by simp)⟩
  | some fact =>
    rw [hf] at h
    obtain ⟨replay, hreplay, h⟩ := seq_ok.mp h
    rcases personalBillingReplayTx_ok hreplay with ⟨rfl, hnone⟩ | ⟨rfl, receipt, hr, hfact⟩
    · simp only [Bool.false_eq_true] at h
      cases h
      refine .inl ⟨rfl, rfl, fun fact' hfact' => ?_⟩
      obtain rfl : fact = fact' := Option.some.inj (hf.symm.trans hfact')
      exact hnone
    · simp only [if_true] at h
      cases h
      exact .inr ⟨rfl, rfl, fact, receipt, hf, hr, hfact⟩

variable {requestId : String}

/-- **The apply transaction.** -/
theorem applyTaskSettlementJournal_ok
    (h : applyTaskSettlementJournal db requestId = .ok (stored, now, db')) :
    ∃ j, db.journals.get? requestId = some j ∧ stored = j.markApplied ∧
      ApplyOutcome db j now db' := by
  unfold applyTaskSettlementJournal at h
  split at h
  · cases h
  rename_i j hj
  refine ⟨j, hj, ?_⟩
  split at h
  · rename_i happlied
    cases h
    refine ⟨?_, .already happlied⟩
    show stored = { stored with applied := true }
    rw [← happlied]
  · rename_i happlied
    have happlied : j.applied = false := by simpa using happlied
    obtain ⟨⟨j', db₁⟩, hrestore, hbody⟩ := seq_ok.mp h
    rcases restorePersonalJournalReceiptTx_ok hrestore with ⟨rfl, rfl, hnew⟩ | ⟨rfl, rfl, hr⟩
    · simp only [happlied] at hbody
      obtain ⟨atTarget, htarget, h⟩ := seq_ok.mp hbody
      obtain ⟨_, hvalid, h⟩ := seq_ok.mp h
      split at h
      · -- the entity is at its target: the flag is set and no money moves
        rename_i hskip
        obtain ⟨rfl, rfl, hfin⟩ := finishApplyTx_ok h
        rcases taskSettlementEntityAtTarget_ok htarget with ⟨_, ht⟩ | ⟨hf, _⟩
        · exact ⟨rfl, .atTarget happlied hskip.2 ht hfin⟩
        · rw [hf] at hskip
          exact absurd hskip.1 (by decide)
      · rename_i hgo
        obtain ⟨db₂, hmove, h⟩ := seq_ok.mp h
        obtain ⟨rfl, rfl, hfin⟩ := finishApplyTx_ok h
        refine ⟨rfl, .moved happlied hnew ?_ hvalid hmove hfin⟩
        rcases taskSettlementEntityAtTarget_ok htarget with ⟨ht, row, hrow, hq⟩ | ⟨_, hready⟩
        · refine .inr ⟨row, hrow, .inr ⟨hq, ?_⟩⟩
          cases hf : j'.personalFact with
          | none => exact absurd ⟨ht, hf⟩ hgo
          | some fact => rfl
        · rcases hready with habs | ⟨row, hrow, hexp⟩
          · exact .inl habs
          · exact .inr ⟨row, hrow, .inl hexp⟩
    · cases hbody
      exact ⟨rfl, .receipt happlied hr⟩

/-! ### What an apply transaction leaves alone -/

namespace ApplyOutcome

section

variable (h : ApplyOutcome db j now db')
include h

theorem journals :
    db'.journals = db.journals ∧ j.applied = true ∨
      db'.journals = db.journals.set j.markApplied ∧ j.applied = false := by
  cases h with
  | already happlied => exact .inl ⟨rfl, happlied⟩
  | receipt happlied _ => exact .inr ⟨rfl, happlied⟩
  | atTarget happlied _ _ hfinish => exact .inr ⟨hfinish.journals, happlied⟩
  | moved happlied _ _ _ hmove hfinish =>
    refine .inr ⟨?_, happlied⟩
    obtain ⟨db₁, db₂, hbal, hent, rfl⟩ := moveMoneyTx_ok hmove
    rw [hfinish.journals, applyTaskSettlementUsageTx_rest, updateTaskSettlementEntityTx_rest hent,
      moveBalancesTx_rest hbal]

theorem rows (hrow : db.journals.get? j.requestId = some j) (k : String) :
    db'.journals.get? k = if k = j.requestId then some j.markApplied else db.journals.get? k := by
  rcases h.journals with ⟨hsame, happlied⟩ | ⟨hset, _⟩
  · rw [hsame]
    split
    · rename_i hk
      rw [hk, hrow]
      show some j = some { j with applied := true }
      rw [← happlied]
    · rfl
  · rw [hset, Table.get?_set]
    have hid : j.markApplied.requestId = j.requestId := rfl
    rw [hid]
    by_cases hk : k = j.requestId
    · rw [if_pos hk, if_pos hk.symm]
    · rw [if_neg hk, if_neg (Ne.symm hk)]

/-- Without a move the balances and the pre-consume records are untouched. -/
theorem untouched (hnow : now = false) : Untouched db db' := by
  cases h with
  | already _ | receipt _ _ => exact ⟨rfl, rfl, rfl, rfl⟩
  | atTarget _ _ _ hfinish =>
    have hrest := hfinish.rest
    exact ⟨by rw [hrest], by rw [hrest], by rw [hrest], by rw [hrest]⟩
  | moved _ _ _ _ _ _ => cases hnow

end

end ApplyOutcome

/-- Money leaves every pre-consume record alone but the one a refund names. -/
theorem moveMoneyTx_records (h : moveMoneyTx db j = .ok db') {requestId : String}
    (hother : ¬ j.refundsRecord ∨ j.subscriptionPreConsumeRequestId ≠ requestId) :
    db'.preConsumeRecords.get? requestId = db.preConsumeRecords.get? requestId := by
  obtain ⟨db₁, db₂, hbal, hent, rfl⟩ := moveMoneyTx_ok h
  rw [applyTaskSettlementUsageTx_rest, updateTaskSettlementEntityTx_rest hent]
  rcases moveBalancesTx_ok hbal with ⟨_, _, unlimited, hres⟩ | ⟨_, db₃, hfund, rfl⟩
  · rw [reserveBillingBalances_rest hres]
  rw [applyTaskSettlementTokenTx_rest]
  rcases hother with hplain | hne
  · rcases applyTaskSettlementFundingTx_ok hfund with ⟨_, rfl⟩ | ⟨_, hrec, _⟩ |
      ⟨_, _, _, hpost⟩ | ⟨_, _, user, _, rfl⟩
    · rfl
    · exact absurd hrec hplain
    · rw [postConsumeUserSubscriptionDeltaTx_rest hpost]
    · rfl
  · exact applyTaskSettlementFundingTx_records hfund hne

def SameTokens (db db' : Database) : Prop :=
  ∀ id, (db'.tokens.get? id).isSome = (db.tokens.get? id).isSome

theorem sameTokens_chargeToken {id : Int} {token : Token}
    (ht : db.tokens.get? id = some token) (amount : Int) :
    SameTokens db (chargeToken db token amount) := by
  intro k
  have hid : token.id = id := Table.key_of_get? ht
  show (Table.get? (Table.set _ _) k).isSome = _
  rw [Table.get?_set]
  split
  · rename_i hk
    rw [← hk, hid, ht]
    rfl
  · rfl

theorem sameTokens_preConsumeTokenBalanceTx {tokenId amount : Int}
    {apply unlimited : Bool}
    (h : preConsumeTokenBalanceTx db tokenId amount apply unlimited = .ok db') :
    SameTokens db db' := by
  rcases preConsumeTokenBalanceTx_ok h with ⟨_, rfl⟩ | ⟨_, _, _, token, ht, rfl⟩
  · exact fun _ => rfl
  · exact sameTokens_chargeToken ht amount

theorem sameTokens_reserveBillingBalances
    {params : BillingBalanceReserveParams} (h : reserveBillingBalances db params = .ok db') :
    SameTokens db db' := by
  obtain ⟨_, ⟨_, _, _, _, _, rfl⟩ | ⟨db₁, db₂, hfund, htoken, happly⟩⟩ :=
    reserveBillingBalances_ok h
  · exact fun _ => rfl
  intro id
  have hfinal : db'.tokens = db₂.tokens := by rw [applyPersonalBillingFactTx_rest happly]
  have hbase : db₁.tokens = db.tokens := by rw [reserveFundingTx_rest hfund]
  rw [hfinal, sameTokens_preConsumeTokenBalanceTx htoken, hbase]

theorem sameTokens_moveMoneyTx (h : moveMoneyTx db j = .ok db') : SameTokens db db' := by
  obtain ⟨db₁, db₂, hbal, hent, rfl⟩ := moveMoneyTx_ok h
  intro id
  rw [applyTaskSettlementUsageTx_rest, updateTaskSettlementEntityTx_rest hent]
  rcases moveBalancesTx_ok hbal with ⟨_, _, unlimited, hres⟩ | ⟨_, db₃, hfund, rfl⟩
  · exact sameTokens_reserveBillingBalances hres id
  have hbase : db₃.tokens = db.tokens := by rw [applyTaskSettlementFundingTx_rest hfund]
  rw [← hbase]
  unfold applyTaskSettlementTokenTx
  split
  · rfl
  split
  · rename_i token ht
    exact sameTokens_chargeToken ht j.delta id
  · rfl

/-- Applying a journal neither creates nor deletes tokens. -/
theorem ApplyOutcome.sameTokens (h : ApplyOutcome db j now db') : SameTokens db db' := by
  cases h with
  | already _ | receipt _ _ => exact fun _ => rfl
  | atTarget _ _ _ hfinish =>
    intro id
    rw [hfinish.rest]
  | moved _ _ _ _ hmove hfinish =>
    intro id
    rw [hfinish.rest]
    exact sameTokens_moveMoneyTx hmove id

/-- A pre-consume record that the journal does not name stays as it is. -/
theorem ApplyOutcome.records (h : ApplyOutcome db j now db')
    (hother : ¬ j.refundsRecord ∨ j.subscriptionPreConsumeRequestId ≠ requestId) :
    db'.preConsumeRecords.get? requestId = db.preConsumeRecords.get? requestId := by
  cases h with
  | already _ | receipt _ _ => rfl
  | atTarget _ _ _ hfinish => rw [hfinish.rest]
  | moved _ _ _ _ hmove hfinish =>
    rw [hfinish.rest]
    exact moveMoneyTx_records hmove hother

/-! ### Persisting -/

/-- The checks at the head of `ensureTaskSettlementJournalTx`. -/
structure Accepted (j : TaskSettlementJournal) : Prop where
  requestId : j.requestId ≠ ""
  userId : 0 < j.userId
  finalQuota : 0 ≤ j.finalQuota
  expectedQuota : 0 ≤ j.expectedQuota
  delta : j.delta = j.finalQuota - j.expectedQuota

/-- What a committed `ensureTaskSettlementJournalTx` left behind: `old` is the row found or
    inserted, `stored` the one returned. -/
structure Ensured (db : Database) (journal old stored : TaskSettlementJournal) (db' : Database) :
    Prop where
  accepted : Accepted journal
  source : db.journals.get? journal.requestId = some old ∨
    db.journals.get? journal.requestId = none ∧ old = journal
  fact : old.toJournalFact = journal.toJournalFact
  mark : stored = old ∧ (old.applied = false → Unreceipted db old.toJournalFact ∧
      (0 < old.receiptEntity.2 → ¬ Confirmed db old)) ∨
    old.applied = false ∧ stored = old.markApplied ∧
      (Receipted db old.toJournalFact ∨ Confirmed db old)
  rows : ∀ k, db'.journals.get? k = if k = journal.requestId then some stored
    else db.journals.get? k
  expense : ∃ db₁, ExpenseOnly { db with journals := db'.journals } db₁ ∧
    (∀ entity id, (entityRow db₁ entity id).map (fun row => row.expense.confirmation)
      = (entityRow db entity id).map (fun row => row.expense.confirmation)) ∧
    confirmOrganizationInvoiceJournalExpenseTx db₁ stored = .ok db'

section

variable {journal old : TaskSettlementJournal} (h : Ensured db journal old stored db')
include h

theorem Ensured.rest :
    db' = { db with
      tasks := db'.tasks, midjourneys := db'.midjourneys, journals := db'.journals } := by
  obtain ⟨db₁, honly, _, hconfirm⟩ := h.expense
  rw [(confirmOrganizationInvoiceJournalExpenseTx_expenseOnly hconfirm).rest, honly.rest]

theorem Ensured.balance_eq : balance db' = balance db := by
  obtain ⟨db₁, honly, _, hconfirm⟩ := h.expense
  rw [(confirmOrganizationInvoiceJournalExpenseTx_expenseOnly hconfirm).balance_eq,
    honly.balance_eq]
  funext a
  cases a <;> rfl

/-- The stored row carries the fact, and the flag of the row it was. -/
theorem Ensured.stored_fact :
    stored.toJournalFact = journal.toJournalFact ∧
      (old.applied = true → stored.applied = true) := by
  rw [← h.fact]
  rcases h.mark with ⟨rfl, _⟩ | ⟨_, rfl, _⟩
  · exact ⟨rfl, id⟩
  · exact ⟨rfl, fun _ => rfl⟩

end

theorem insertJournal_rows (db : Database) (journal : TaskSettlementJournal) :
    (db.journals.get? journal.requestId = some (insertJournal db journal).1 ∨
        db.journals.get? journal.requestId = none ∧ (insertJournal db journal).1 = journal) ∧
      (insertJournal db journal).2 = { db with journals := (insertJournal db journal).2.journals } ∧
      ∀ k, (insertJournal db journal).2.journals.get? k
        = if k = journal.requestId then some (insertJournal db journal).1
          else db.journals.get? k := by
  unfold insertJournal
  split
  · rename_i stored hs
    refine ⟨.inl hs, rfl, fun k => ?_⟩
    by_cases hk : k = journal.requestId
    · rw [if_pos hk, hk]
      exact hs
    · rw [if_neg hk]
  · rename_i hnone
    refine ⟨.inr ⟨hnone, rfl⟩, rfl, fun k => ?_⟩
    simp [writeJournal, Table.get?_set, eq_comm]

/-- The receipts set the flag of an unapplied row, and nothing else. -/
theorem restoreReceiptsTx_ok {old : TaskSettlementJournal}
    (h : restoreReceiptsTx db old = .ok (stored, db')) :
    (stored = old ∧ db' = db ∧ (old.applied = false → Unreceipted db old.toJournalFact ∧
        (0 < old.receiptEntity.2 → ¬ Confirmed db old))) ∨
      (old.applied = false ∧ stored = old.markApplied ∧
        db' = writeJournal db old.markApplied ∧
        (Receipted db old.toJournalFact ∨ Confirmed db old)) := by
  unfold restoreReceiptsTx at h
  split at h
  · rename_i happlied
    cases h
    exact .inl ⟨rfl, rfl, fun hf => absurd (happlied.symm.trans hf) (by decide)⟩
  · rename_i happlied
    have happlied : old.applied = false := by simpa using happlied
    obtain ⟨⟨j, db₁⟩, hrestore, hbody⟩ := seq_ok.mp h
    clear h
    rcases restorePersonalJournalReceiptTx_ok hrestore with ⟨rfl, rfl, hnew⟩ | ⟨rfl, rfl, hr⟩
    · simp only [happlied] at hbody
      obtain ⟨already, halready, hbody⟩ := seq_ok.mp hbody
      rcases taskInvoiceExpenseReceiptTx_ok halready with ⟨rfl, hc⟩ | ⟨rfl, hc⟩
      · simp only [if_true] at hbody
        cases hbody
        exact .inr ⟨happlied, rfl, rfl, .inr hc⟩
      · simp only [Bool.false_eq_true] at hbody
        cases hbody
        exact .inl ⟨rfl, rfl, fun _ => ⟨hnew, hc⟩⟩
    · dsimp only at hbody
      cases hbody
      exact .inr ⟨happlied, rfl, rfl, .inl hr⟩

/-- **The ensure transaction.** -/
theorem ensureTaskSettlementJournalTx_ok
    {journal : TaskSettlementJournal}
    (h : ensureTaskSettlementJournalTx db journal = .ok (stored, db')) :
    ∃ old, Ensured db journal old stored db' := by
  unfold ensureTaskSettlementJournalTx at h
  split at h
  · cases h
  rename_i hhead
  split at h
  · cases h
  split_ifs at h with hdelta
  obtain ⟨hsource, hrest, hrows⟩ := insertJournal_rows db journal
  cases hins : insertJournal db journal with
  | mk old dbI =>
  rw [hins] at h hsource hrest hrows
  dsimp only at h hsource hrest hrows
  split_ifs at h with hfact
  obtain ⟨db₁, horigin, h⟩ := seq_ok.mp h
  obtain ⟨⟨stored', db₂⟩, hrestore, h⟩ := seq_ok.mp h
  obtain ⟨db₃, hconfirm, h⟩ := seq_ok.mp h
  cases h
  -- the tables below the journals are those of `db`, up to origin times
  have honly := recordOrganizationInvoiceTaskOriginTx_expenseOnly horigin
  have hconf : ∀ entity id, (entityRow db₁ entity id).map (fun row => row.expense.confirmation)
      = (entityRow db entity id).map (fun row => row.expense.confirmation) := by
    intro entity id
    rw [recordOrganizationInvoiceTaskOriginTx_confirmation horigin, hrest]
    cases entity <;> rfl
  have hreceipts : db₁.receipts = db.receipts := by rw [honly.rest, hrest]
  have hjournals₁ : db₁.journals = dbI.journals := by rw [honly.rest]
  have hjournals : db'.journals = db₂.journals := by
    rw [(confirmOrganizationInvoiceJournalExpenseTx_expenseOnly hconfirm).rest]
  have hkey : old.requestId = journal.requestId := by
    rcases hsource with hs | ⟨_, rfl⟩
    · exact Table.key_of_get? hs
    · rfl
  have hid : old.markApplied.requestId = journal.requestId := hkey
  refine ⟨old, ⟨⟨fun he => hhead (.inl he), by omega, by omega, by omega, not_not.mp hdelta⟩,
    hsource, not_not.mp hfact, ?_, ?_, db₂, ?_, ?_, hconfirm⟩⟩
  · rcases restoreReceiptsTx_ok hrestore with ⟨hst, _, hno⟩ | ⟨ha, hst, _, hproof⟩
    · refine .inl ⟨hst, fun ha => ⟨?_, fun hpos hc => (hno ha).2 hpos ?_⟩⟩
      · intro fact hf
        rw [← hreceipts]
        exact (hno ha).1 fact hf
      · exact confirmed_congr (fun entity id => (hconf entity id).symm) old hc
    · refine .inr ⟨ha, hst, ?_⟩
      rcases hproof with ⟨fact, receipt, hf, hr, heq⟩ | hc
      · exact .inl ⟨fact, receipt, hf, hreceipts ▸ hr, heq⟩
      · exact .inr (confirmed_congr hconf old hc)
  · intro k
    rw [hjournals]
    rcases restoreReceiptsTx_ok hrestore with ⟨rfl, rfl, _⟩ | ⟨_, rfl, rfl, _⟩
    · rw [hjournals₁, hrows]
    simp only [writeJournal, Table.get?_set, hid, hjournals₁, hrows]
    by_cases hk : journal.requestId = k
    · rw [if_pos hk, if_pos hk.symm]
    · rw [if_neg hk, if_neg (Ne.symm hk), if_neg (Ne.symm hk)]
  · refine ⟨fun entity id => ?_, ?_⟩
    · have hrow : ∀ e i, entityRow db₂ e i = entityRow db₁ e i := by
        rcases restoreReceiptsTx_ok hrestore with ⟨_, rfl, _⟩ | ⟨_, _, rfl, _⟩
        · exact fun _ _ => rfl
        · intro e i
          cases e <;> rfl
      rw [hrow, honly.rows, hrest]
      cases entity <;> rfl
    · rw [hjournals]
      rcases restoreReceiptsTx_ok hrestore with ⟨_, rfl, _⟩ | ⟨_, _, rfl, _⟩
      · rw [honly.rest, hrest]
      · rw [honly.rest, hrest]
        rfl
  · intro entity id
    have hrow : entityRow db₂ entity id = entityRow db₁ entity id := by
      rcases restoreReceiptsTx_ok hrestore with ⟨_, rfl, _⟩ | ⟨_, _, rfl, _⟩
      · rfl
      · cases entity <;> rfl
    rw [hrow, hconf]

/-- The row of a journal's entity is new, and the journal and its request learn of it. -/
structure Bound (entity : SettlementEntity) (db : Database) (journal : TaskSettlementJournal)
    (task : Task) (bound : TaskSettlementJournal) (db' : Database) : Prop where
  free : entityRow db entity task.id = none
  requestId : bound.requestId = journal.requestId
  rest : db' = { setEntityRow db entity task with requests := db'.requests }
  snapshots : ∀ id, (db'.requests.get? id).map ResellerRequest.snapshot =
    (db.requests.get? id).map ResellerRequest.snapshot
  plain : journal.personalFact = none → db' = setEntityRow db entity task ∧
    bound = { journal with entityType := entity, entityId := task.id }

section Bound

variable {entity : SettlementEntity} {journal : TaskSettlementJournal} {task : Task}

theorem Bound.journals {bound : TaskSettlementJournal}
    (h : Bound entity db journal task bound db') :
    db'.journals = db.journals := by
  rw [h.rest]
  cases entity <;> rfl

/-- A journal persisted together with its new entity row. -/
theorem ensureJournalWithEntity_ok
    (h : ensureJournalWithEntity entity db journal task = .ok (stored, db')) :
    ∃ db₁ bound, Bound entity db journal task bound db₁ ∧
      ensureTaskSettlementJournalTx db₁ bound = .ok (stored, db') := by
  obtain ⟨db₀, hinsert, hbody⟩ := seq_ok.mp h
  obtain ⟨⟨bound, db₁⟩, hbind, htx⟩ := seq_ok.mp hbody
  unfold insertEntityRow at hinsert
  split_ifs at hinsert with hfree
  rw [Option.not_isSome_iff_eq_none] at hfree
  cases hinsert
  refine ⟨db₁, bound, ?_, htx⟩
  have hrequests : (setEntityRow db entity task).requests = db.requests := by cases entity <;> rfl
  unfold bindPersonalTaskJournalTx at hbind
  split at hbind
  · cases hbind
    exact ⟨hfree, rfl, rfl, fun _ => by rw [hrequests], fun _ => ⟨rfl, rfl⟩⟩
  rename_i fact hfact
  dsimp only at hbind
  split at hbind
  · cases hbind
  rename_i state hstate
  split at hbind
  · cases hbind
    refine ⟨hfree, rfl, rfl, fun id => ?_, fun hnone => absurd (hnone.symm.trans hfact) nofun⟩
    have hkey : state.id = _ := Table.key_of_get? hstate
    rw [Table.get?_set, ← hrequests]
    split_ifs with hid
    · rw [← hid, hkey, hstate]
      rfl
    · rfl
  · cases hbind

end Bound

end TokenGateway.Billing
