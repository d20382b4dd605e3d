import TokenGateway.Billing.Receipt

namespace TokenGateway.Billing

open Base Reseller

/-!
# At most once, across the cleanup of the outbox

A finished journal is deleted, and may be persisted again by a caller that retries.  Its receipt
then has to keep it from moving the money again.

* `Remembered` — what is left of an operation outside the outbox: the receipt of its personal
  fact, or the confirmation on its entity (`Held`);
* `Keeps` — no transaction loses it;
* `replayStep` — a transaction, with a count of the moves of one journal fact;
* `replay_at_most_once` — in every run the count is at most one, and once it is one, repeating
  the fact moves nothing;
* `pending_journal_kept` — and what is pending stays.
-/

/-! ### Memory outside the outbox -/

/-- The operation `k` with the fact `j` is remembered outside the outbox. -/
def Remembered (k : String) (j : JournalFact) (applied : Bool) (db : Database) : Prop :=
  match j.personalFact with
  | some _ => applied = true → Receipted db j
  | none => Held k j.receiptEntity j.receiptQuota applied db

/-- The transaction loses no receipt and no confirmation. -/
structure Keeps (db db' : Database) : Prop where
  receipts : ∀ id receipt, db.receipts.get? id = some receipt → db'.receipts.get? id = some receipt
  views : ViewMoves db db'

variable {db db' : Database}

theorem Keeps.receipted (h : Keeps db db') {j : JournalFact} (hr : Receipted db j) :
    Receipted db' j := by
  obtain ⟨fact, receipt, hfact, hget, hsame⟩ := hr
  exact ⟨fact, receipt, hfact, h.receipts _ _ hget, hsame⟩

variable {k : String} {applied : Bool}

theorem Remembered.step (h : Keeps db db') {j : JournalFact} (hr : Remembered k j applied db) :
    Remembered k j applied db' := by
  unfold Remembered at hr ⊢
  split
  · rename_i fact hfact
    rw [hfact] at hr
    exact fun ha => h.receipted (hr ha)
  · rename_i hfact
    rw [hfact] at hr
    exact held_step h.views hr

theorem Remembered.of_true {j : JournalFact} (hr : Remembered k j true db) :
    Remembered k j applied db := by
  unfold Remembered at hr ⊢
  split
  · rename_i fact hfact
    rw [hfact] at hr
    exact fun _ => hr rfl
  · rename_i hfact
    rw [hfact] at hr
    obtain ⟨hpos, v, hv, hown | hblock⟩ := hr
    · exact ⟨hpos, v, hv, .inl ⟨hown.amount, hown.source, fun _ => hown.flag rfl, hown.named⟩⟩
    · exact ⟨hpos, v, hv, .inr hblock⟩

/-! ### Receipts of personal facts -/

variable {id : String} {receipt : ResellerBillingReceipt}

/-- An applied fact has its receipt, and every other receipt stays. -/
theorem applyPersonalBillingFactTx_receipts {fact : Option PersonalBillingFact}
    (h : applyPersonalBillingFactTx db fact = .ok db')
    {receipt : ResellerBillingReceipt} (hr : db.receipts.get? id = some receipt) :
    db'.receipts.get? id = some receipt := by
  cases fact with
  | none =>
    cases h
    exact hr
  | some fact =>
    rcases applyPersonalBillingFactTx_ok h with ⟨_, rfl⟩ | ⟨next, happlied⟩
    · exact hr
    obtain ⟨new, hid, _, hset⟩ := happlied.receipts
    rw [hset, Table.get?_set_of_ne]
    · exact hr
    · -- the new receipt goes to an unused id
      intro heq
      rw [← heq, hid, happlied.unused] at hr
      cases hr

variable {j : TaskSettlementJournal}

theorem moveMoneyTx_receipts (h : moveMoneyTx db j = .ok db')
    (hr : db.receipts.get? id = some receipt) :
    db'.receipts.get? id = some receipt := by
  obtain ⟨db₁, db₂, hbal, hent, rfl⟩ := moveMoneyTx_ok h
  rw [applyTaskSettlementUsageTx_rest, updateTaskSettlementEntityTx_rest hent]
  rcases moveBalancesTx_ok hbal with ⟨_, _, unlimited, hres⟩ | ⟨_, db₃, hfund, rfl⟩
  · obtain ⟨_, ⟨_, _, _, _, _, rfl⟩ | ⟨db₃, db₄, hfund, htoken, happly⟩⟩ :=
      reserveBillingBalances_ok hres
    · exact hr
    · refine applyPersonalBillingFactTx_receipts happly ?_
      rw [preConsumeTokenBalanceTx_rest htoken, reserveFundingTx_rest hfund]
      exact hr
  · rw [applyTaskSettlementTokenTx_rest, applyTaskSettlementFundingTx_rest hfund]
    exact hr

/-- The personal fact of an applied journal has its receipt. -/
theorem applyPersonalJournalTx_receipted (h : applyPersonalJournalTx db j = .ok db')
    (hsome : j.personalFact.isSome) : Receipted db' j.toJournalFact := by
  obtain ⟨fact, hfact⟩ := Option.isSome_iff_exists.mp hsome
  unfold applyPersonalJournalTx at h
  rw [hfact] at h
  dsimp only at h
  split_ifs at h
  rcases applyPersonalBillingFactTx_ok h with ⟨⟨receipt, hr, hsame⟩, rfl⟩ | ⟨next, happlied⟩
  · exact ⟨fact, receipt, hfact, hr, hsame⟩
  · obtain ⟨receipt, hid, hsame, hset⟩ := happlied.receipts
    refine ⟨fact, receipt, hfact, ?_, hsame⟩
    rw [hset, Table.get?_set_of_eq _ hid]

/-! ### No transaction loses the memory -/

theorem moveMoneyTx_view (h : moveMoneyTx db j = .ok db') (e : SettlementEntity × Int) :
    receiptView db' e = receiptView db e := by
  obtain ⟨db₁, db₂, hbal, hent, rfl⟩ := moveMoneyTx_ok h
  have hbefore : receiptView db₁ e = receiptView db e := by
    rw [moveBalancesTx_rest hbal]
    cases e.1 <;> rfl
  have hafter : receiptView (applyTaskSettlementUsageTx db₂ j) e = receiptView db₂ e := by
    rw [applyTaskSettlementUsageTx_rest]
    cases e.1 <;> rfl
  rw [hafter, ← hbefore]
  rcases updateTaskSettlementEntityTx_ok hent with ⟨_, rfl⟩ | ⟨row, hrow, _, rfl⟩
  · rfl
  rw [receiptView_setEntityRow (entity_of_entityRow hrow)]
  split
  · rename_i he
    have hid : row.id = j.entityId := entityRow_id hrow
    rw [he]
    show _ = (entityRow db₁ j.entityType row.id).map _
    rw [hid, hrow]
    rfl
  · rfl

theorem Finished.keeps (h : Finished db j db') : Keeps db db' := by
  obtain ⟨db₁, hpersonal, hmark⟩ := h.expense
  refine ⟨fun id receipt hr => ?_, fun e v hv => ?_⟩
  · rw [(markTaskInvoiceExpenseAppliedTx_expenseOnly hmark).rest]
    unfold applyPersonalJournalTx at hpersonal
    split at hpersonal
    · cases hpersonal
      exact hr
    · split_ifs at hpersonal
      refine applyPersonalBillingFactTx_receipts hpersonal ?_
      split <;> exact hr
  · refine viewMoves_markApplied hmark e v ?_
    rw [← hv]
    rw [applyPersonalJournalTx_rest hpersonal]
    cases e.1 <;> rfl

theorem ApplyOutcome.keeps {now : Bool} (h : ApplyOutcome db j now db') : Keeps db db' := by
  cases h with
  | already _ => exact ⟨fun _ _ hr => hr, viewMoves_of_eq fun _ => rfl⟩
  | receipt _ _ =>
    refine ⟨fun _ _ hr => hr, viewMoves_of_eq fun e => ?_⟩
    cases e.1 <;> rfl
  | atTarget _ _ _ hfinish => exact hfinish.keeps
  | moved _ _ _ _ hmove hfinish =>
    refine ⟨fun id receipt hr => ?_, fun e v hv => ?_⟩
    · exact hfinish.keeps.receipts id receipt (moveMoneyTx_receipts hmove hr)
    · exact hfinish.keeps.views e v ((moveMoneyTx_view hmove e).trans hv)

/-- Moving the money of a journal leaves its memory behind. -/
theorem ApplyOutcome.remembered (h : ApplyOutcome db j true db')
    (hkind : j.personalFact = none → j.confirmsExpense)
    (hr : Remembered j.requestId j.toJournalFact false db) :
    Remembered j.requestId j.toJournalFact true db' := by
  cases h with
  | moved _ _ _ _ hmove hfinish =>
    obtain ⟨db₂, hpersonal, hmark⟩ := hfinish.expense
    unfold Remembered at hr ⊢
    split
    · rename_i fact hfact
      intro _
      obtain ⟨f, receipt, hf, hget, hsame⟩ :=
        applyPersonalJournalTx_receipted hpersonal (by rw [hfact]; rfl)
      refine ⟨f, receipt, hf, ?_, hsame⟩
      rw [(markTaskInvoiceExpenseAppliedTx_expenseOnly hmark).rest]
      exact hget
    · rename_i hfact
      rw [hfact] at hr
      -- the confirmation is where it was when the row is written
      refine held_markApplied (j := j.markApplied) (hkind hfact) hmark ?_
      refine held_step (viewMoves_of_eq fun e => ?_) hr
      rw [← moveMoneyTx_view hmove]
      rw [applyPersonalJournalTx_rest hpersonal]
      cases e.1 <;> rfl

section

variable {journal old stored : TaskSettlementJournal} (h : Ensured db journal old stored db')
include h

/-- What the row to confirm was before a journal was persisted. -/
theorem Ensured.view :
    ∃ db₁, (∀ e, receiptView db₁ e = receiptView db e) ∧
      confirmOrganizationInvoiceJournalExpenseTx db₁ stored = .ok db' := by
  obtain ⟨db₁, honly, hconf, hconfirm⟩ := h.expense
  refine ⟨db₁, fun e => receiptView_congr ?_ (hconf e.1 e.2), hconfirm⟩
  rw [honly.rows]
  cases e.1 <;> rfl

theorem Ensured.stored_id : stored.requestId = journal.requestId := by
  have hkey : old.requestId = journal.requestId := by
    rcases h.source with hs | ⟨_, rfl⟩
    · exact Table.key_of_get? hs
    · rfl
  rcases h.mark with ⟨rfl, _⟩ | ⟨_, rfl, _⟩
  · exact hkey
  · exact hkey

theorem Ensured.keeps (hissued : Issued db journal) : Keeps db db' := by
  refine ⟨fun id receipt hr => ?_, fun e v hv => ?_⟩
  · rw [h.rest]
    exact hr
  obtain ⟨db₁, hsame, hconfirm⟩ := h.view
  rw [← hsame] at hv
  rcases confirmOrganizationInvoiceJournalExpenseTx_ok hconfirm with ⟨_, rfl⟩ | ⟨hconfirms, htx⟩
  · exact ⟨v, hv, .same v⟩
  refine viewMoves_confirm htx (fun hrefund w hw hplain => ?_) e v hv
  rw [h.stored_id] at hrefund ⊢
  rw [h.stored_fact.1] at hconfirms hw ⊢
  rw [hsame] at hw
  rcases hissued hconfirms hrefund w hw with ⟨hp, _⟩ | ⟨_, _, hid⟩
  · cases hplain.symm.trans hp
  · exact hid

/-- Persisting a fact leaves the memory that it may have been applied. -/
theorem Ensured.remembered (hissued : Issued db journal)
    (hkind : journal.personalFact = none → journal.confirmsExpense) :
    Remembered journal.requestId journal.toJournalFact false db' := by
  unfold Remembered
  split
  · exact fun hc => by cases hc
  rename_i hfact
  obtain ⟨db₁, hsame, hconfirm⟩ := h.view
  rcases confirmOrganizationInvoiceJournalExpenseTx_ok hconfirm with ⟨hno, _⟩ | ⟨hconfirms, htx⟩
  · rw [h.stored_fact.1] at hno
    exact absurd (hkind hfact) hno
  rw [h.stored_fact.1, h.stored_id] at htx
  obtain ⟨hpos, v, v', hv, hv', _, hcase⟩ := confirmTaskInvoiceExpenseTx_view htx
  rw [hsame] at hv
  have hnamed : journal.receiptQuota = 0 → isRefundSource journal.requestId = true →
      v.personal = false ∧ journal.requestId = refundOperationId journal.receiptEntity := by
    intro _ hrefund
    rcases hissued (hkind hfact) hrefund v hv with ⟨_, hsome⟩ | ⟨hp, _, hid⟩
    · rw [hfact] at hsome
      cases hsome
    · exact ⟨hp, hid⟩
  refine ⟨hpos, v', hv', .inl ?_⟩
  rcases hcase with ⟨hq, hs, rfl⟩ | ⟨_, _, rfl⟩
  · exact ⟨hq, hs, (fun hc => by cases hc), hnamed⟩
  · exact ⟨rfl, rfl, (fun hc => by cases hc), hnamed⟩

/-- **The replay is recognised.** A fact that is remembered as applied is persisted as applied. -/
theorem Ensured.applied_of_remembered (hkind : journal.personalFact = none →
      journal.confirmsExpense)
    (hr : Remembered journal.requestId journal.toJournalFact true db) : stored.applied = true := by
  rcases h.mark with ⟨rfl, hno⟩ | ⟨_, rfl, _⟩
  swap
  · rfl
  by_contra hunapplied
  obtain ⟨hunreceipted, hunconfirmed⟩ := hno (by simpa using hunapplied)
  rw [h.stored_fact.1] at hunreceipted
  unfold Remembered at hr
  split at hr
  · obtain ⟨fact, receipt, hfact, hget, _⟩ := hr rfl
    rw [hunreceipted fact hfact] at hget
    cases hget
  · rename_i hfact
    obtain ⟨hpos, v, hv, hown | hblock⟩ := hr
    · -- the confirmation on the row is the receipt
      refine hunconfirmed (by rw [h.stored_fact.1]; exact hpos) ?_
      obtain ⟨row, hrow, rfl⟩ := Option.map_eq_some_iff.mp hv
      unfold Confirmed confirmsApplied
      rw [h.stored_fact.1, h.stored_id]
      refine ⟨row, hrow, ?_⟩
      have hflag : row.expense.invoiceExpenseApplied = true := hown.flag rfl
      have hquota : row.expense.invoiceExpenseQuota = some journal.receiptQuota := hown.amount
      have hsource : row.expense.invoiceExpenseSource = journal.requestId := hown.source
      rw [hflag, hquota, hsource]
      simp
    · -- another confirmation is in the way, so the transaction cannot have committed
      obtain ⟨db₁, hsame, hconfirm⟩ := h.view
      rcases confirmOrganizationInvoiceJournalExpenseTx_ok hconfirm with ⟨hnot, _⟩ | ⟨_, htx⟩
      · rw [h.stored_fact.1] at hnot
        exact hnot (hkind hfact)
      rw [h.stored_fact.1, h.stored_id] at htx
      obtain ⟨_, w, _, hw, _, _, hcase⟩ := confirmTaskInvoiceExpenseTx_view htx
      rw [hsame] at hw
      obtain rfl : v = w := Option.some.inj (hv.symm.trans hw)
      rcases hcase with ⟨hq, hs, _⟩ | ⟨_, hfree, _⟩
      · exact hblock.other ⟨hq, hs⟩
      · exact hblock.final (hfree hblock.taken)

end

/-! ### Runs -/

/-- The row of `k` carries the fact `j`, and applying it moves the money. -/
def movesNow (k : String) (j : JournalFact) (db : Database) : Bool :=
  (db.journals.get? k).any (fun row => row.toJournalFact = j) && appliesNow db k

/-- How often a transaction moves the money of the fact `j` of `k`. -/
def OutboxStep.moves (k : String) (j : JournalFact) (db : Database) : OutboxStep → Nat
  | .sweep (.apply id) => if id = k ∧ movesNow k j db then 1 else 0
  | .reserve journal =>
      match reserveTaskSettlementJournal db journal with
      | .ok _ => if journal.requestId = k ∧ movesNow k j (outboxStep db (.ensure journal)) then 1
          else 0
      | .error _ => 0
  | _ => 0

/-- A database, and how often the money of one fact moved. -/
structure AuditedOutbox where
  db : Database
  moves : Nat := 0

/-- One transaction, audited for the fact `j` of `k`. -/
def replayStep (k : String) (j : JournalFact) (s : AuditedOutbox) (step : OutboxStep) :
    AuditedOutbox :=
  { db := outboxStep s.db step, moves := s.moves + step.moves k j s.db }

/-- The transaction repeats the fact `j` of `k`. -/
def OutboxStep.repeats (k : String) (j : JournalFact) (db : Database) : OutboxStep → Prop
  | .ensure journal => journal.requestId = k ∧ journal.toJournalFact = j
  | .reserve journal => journal.requestId = k ∧ journal.toJournalFact = j
  | .ensureWith .. => False
  | .sweep (.apply id) => id = k ∧ ∃ row, db.journals.get? k = some row ∧ row.toJournalFact = j
  | .sweep (.logDone id) => id = k
  | .sweep (.delete id) => id = k

/-- The money of the fact moved at most once; once it did, repeating it moves no balance. -/
def AtMostOnce (k : String) (j : JournalFact) (s : AuditedOutbox) : Prop :=
  s.moves ≤ 1 ∧ (0 < s.moves → ∀ step : OutboxStep, step.repeats k j s.db →
    balance (outboxStep s.db step) = balance s.db)

/-- Refund ids are used as promised; the journal of a new entity is no refund. -/
def OutboxStep.issued (db : Database) : OutboxStep → Prop
  | .ensure journal => Issued db journal
  | .reserve journal => Issued db journal
  | .ensureWith _ journal _ => isRefundSource journal.requestId = false
  | .sweep _ => True

/-- What holds of the fact `j` of `k` throughout a run. -/
structure ReplayInv (k : String) (j : JournalFact) (s : AuditedOutbox) : Prop where
  once : s.moves ≤ 1
  stored : ∀ row, s.db.journals.get? k = some row → row.toJournalFact = j →
    Remembered k j false s.db ∧ (0 < s.moves → row.applied = true)
  moved : 0 < s.moves → Remembered k j true s.db

/-! ### What one transaction preserves -/

section Step

variable {j : JournalFact} {moves : Nat}

theorem movesNow_iff : movesNow k j db = true ↔
    (∃ row, db.journals.get? k = some row ∧ row.toJournalFact = j) ∧ appliesNow db k = true := by
  unfold movesNow
  rw [Bool.and_eq_true, Option.any_eq_true]
  simp

theorem keeps_insertEntityRow {entity : SettlementEntity} {task : Task} {db₁ : Database}
    (hfree : entityRow db entity task.id = none)
    (h : db₁ = { setEntityRow db entity task with requests := db₁.requests }) : Keeps db db₁ := by
  refine ⟨fun id receipt hr => ?_, fun e v hv => ⟨v, ?_, .same v⟩⟩
  · rw [h]
    cases entity <;> exact hr
  have hview : receiptView db₁ e = receiptView (setEntityRow db entity task) e := by
    rw [h]
    cases e.1 <;> rfl
  rw [hview]
  by_cases hreal : entity = .task ∨ entity = .midjourney
  · rw [receiptView_setEntityRow hreal, if_neg]
    · exact hv
    rintro rfl
    unfold receiptView at hv
    rw [hfree] at hv
    cases hv
  · have hsame : setEntityRow db entity task = db := by
      cases entity with
      | task => exact absurd (.inl rfl) hreal
      | midjourney => exact absurd (.inr rfl) hreal
      | absent | other name => rfl
    rw [hsame]
    exact hv

theorem keeps_journals (h : db' = { db with journals := db'.journals }) : Keeps db db' := by
  rw [h]
  refine ⟨fun _ _ hr => hr, viewMoves_of_eq fun e => ?_⟩
  cases e.1 <;> rfl

theorem applyStep_of_applied {row : TaskSettlementJournal}
    (hrow : db.journals.get? id = some row) (happlied : row.applied = true) :
    applyStep db id = db := by
  unfold applyStep applyTaskSettlementJournal
  simp [hrow, happlied]

section

variable (hinv : ReplayInv k j ⟨db, moves⟩)
include hinv

/-- A transaction that loses no memory, and stores the fact only where it was stored. -/
theorem replayInv_keeps (hkeeps : Keeps db db')
    (hrows : ∀ row', db'.journals.get? k = some row' → row'.toJournalFact = j →
      ∃ row, db.journals.get? k = some row ∧ row.toJournalFact = j ∧
        (row.applied = true → row'.applied = true)) : ReplayInv k j ⟨db', moves⟩ := by
  refine ⟨hinv.once, fun row' hrow' hfact' => ?_, fun hm => (hinv.moved hm).step hkeeps⟩
  obtain ⟨row, hrow, hfact, hflag⟩ := hrows row' hrow' hfact'
  obtain ⟨hr, happlied⟩ := hinv.stored row hrow hfact
  exact ⟨hr.step hkeeps, fun hm => hflag (happlied hm)⟩

theorem replayInv_outbox (honly : OutboxOnly db db') : ReplayInv k j ⟨db', moves⟩ := by
  refine replayInv_keeps hinv (keeps_journals honly.rest) fun new hnew hfact => ?_
  obtain ⟨old, hold, hsame, happlied⟩ := honly.rows k new hnew
  exact ⟨old, hold, hsame.trans hfact, fun h => happlied ▸ h⟩

variable (hkind : j.personalFact = none → j.confirmsExpense)
include hkind

theorem replayInv_ensured {journal old stored : TaskSettlementJournal}
    (h : Ensured db journal old stored db') (hissued : Issued db journal) :
    ReplayInv k j ⟨db', moves⟩ := by
  have hkeeps := h.keeps hissued
  refine ⟨hinv.once, fun row hrow hfact => ?_, fun hm => (hinv.moved hm).step hkeeps⟩
  have hget := (h.rows k).symm.trans hrow
  by_cases hk : k = journal.requestId
  · rw [if_pos hk] at hget
    obtain rfl : stored = row := Option.some.inj hget
    obtain rfl : journal.toJournalFact = j := h.stored_fact.1.symm.trans hfact
    subst hk
    exact ⟨h.remembered hissued hkind, fun hm => h.applied_of_remembered hkind (hinv.moved hm)⟩
  · rw [if_neg hk] at hget
    obtain ⟨hr, happlied⟩ := hinv.stored row hget hfact
    exact ⟨hr.step hkeeps, happlied⟩

/-- Applying a journal: the one move of the fact, or none. -/
theorem replayInv_apply (id : String) :
    ReplayInv k j ⟨applyStep db id, moves + if id = k ∧ movesNow k j db then 1 else 0⟩ := by
  rcases applyStep_cases db id with ⟨hsame, hnow⟩ | ⟨row, hrow, _, hout⟩
  · rw [hsame, if_neg]
    · exact hinv
    · rintro ⟨rfl, hm⟩
      cases hnow.symm.trans (movesNow_iff.mp hm).2
  have hid : row.requestId = id := Table.key_of_get? hrow
  subst hid
  have hrows := hout.rows hrow k
  by_cases hmove : row.requestId = k ∧ movesNow k j db
  · -- the row was not applied, so the fact did not move before
    obtain ⟨rfl, hm⟩ := hmove
    obtain ⟨⟨row', hrow', hfact⟩, hnow⟩ := movesNow_iff.mp hm
    obtain rfl : row = row' := Option.some.inj (hrow.symm.trans hrow')
    rw [hnow] at hout
    obtain ⟨hr, happlied⟩ := hinv.stored row hrow hfact
    have hzero : moves = 0 := by
      by_contra hne
      have hflag := happlied (Nat.pos_of_ne_zero hne)
      cases hout with
      | moved hunapplied _ _ _ _ _ => cases hunapplied.symm.trans hflag
    have hmoved : Remembered row.requestId j true (applyStep db row.requestId) := by
      subst hfact
      exact hout.remembered hkind hr
    rw [if_pos ⟨rfl, hm⟩, hzero]
    rw [if_pos rfl] at hrows
    refine ⟨le_refl 1, fun new hnew _ => ⟨hmoved.of_true, fun _ => ?_⟩, fun _ => hmoved⟩
    obtain rfl : row.markApplied = new := Option.some.inj (hrows.symm.trans hnew)
    rfl
  · rw [if_neg hmove]
    refine replayInv_keeps hinv hout.keeps fun new hnew hfact => ?_
    rw [hnew] at hrows
    by_cases hk : k = row.requestId
    · rw [if_pos hk] at hrows
      cases hrows
      exact ⟨row, hk ▸ hrow, hfact, fun _ => rfl⟩
    · rw [if_neg hk] at hrows
      exact ⟨new, hrows.symm, hfact, id⟩

/-- **One transaction.** -/
theorem replayInv_step (step : OutboxStep) (hissued : step.issued db) :
    ReplayInv k j (replayStep k j ⟨db, moves⟩ step) := by
  unfold replayStep
  cases step with
  | ensure journal =>
    rcases outboxStep_ensure db journal with hsame | ⟨old, stored, h⟩
    · rw [hsame]
      exact hinv
    · exact replayInv_ensured hinv hkind h hissued
  | ensureWith entity journal row =>
    show ReplayInv k j ⟨commit db _, moves + 0⟩
    cases hens : ensureJournalWithEntity entity db journal row with
    | error e => exact hinv
    | ok out =>
      obtain ⟨db₁, bound, hbound, htx⟩ := ensureJournalWithEntity_ok hens
      obtain ⟨old, h⟩ := ensureTaskSettlementJournalTx_ok htx
      have hmid : ReplayInv k j ⟨db₁, moves⟩ :=
        replayInv_keeps hinv (keeps_insertEntityRow hbound.free hbound.rest) fun new hnew hfact =>
          ⟨new, hbound.journals ▸ hnew, hfact, id⟩
      have hplain : isRefundSource bound.requestId = false := by
        rw [hbound.requestId]
        exact hissued
      exact replayInv_ensured hmid hkind h (issued_of_not_refund hplain)
  | reserve journal =>
    cases hres : reserveTaskSettlementJournal db journal with
    | error e =>
      simp only [outboxStep, OutboxStep.moves, hres]
      exact hinv
    | ok out =>
      obtain ⟨stored, db'⟩ := out
      obtain ⟨_, _, db₁, ensured, now, hens, happly⟩ := reserveTaskSettlementJournal_ok hres
      obtain ⟨old, h⟩ := ensureTaskSettlementJournalTx_ok hens
      -- persisted first, then applied
      have hmid := replayInv_apply (replayInv_ensured hinv hkind h hissued) hkind journal.requestId
      have hdb₁ : outboxStep db (.ensure journal) = db₁ := by
        simp only [outboxStep, hens]
        rfl
      have hdb' : applyStep db₁ journal.requestId = db' := by
        simp [applyStep, happly]
      have hmoves : (OutboxStep.reserve journal).moves k j db
          = if journal.requestId = k ∧ movesNow k j db₁ then 1 else 0 := by
        simp [OutboxStep.moves, hres, hdb₁]
      have hstep : outboxStep db (.reserve journal) = db' := by
        simp only [outboxStep, hres]
        rfl
      rw [hstep, hmoves, ← hdb']
      exact hmid
  | sweep step =>
    cases step with
    | apply id => exact replayInv_apply hinv hkind id
    | logDone id => exact replayInv_outbox hinv (markTaskSettlementLogDone_outboxOnly db id)
    | delete id => exact replayInv_outbox hinv (deleteTaskSettlementJournal_outboxOnly db id)

/-- **Once moved, repeating the fact moves no balance.** -/
theorem replayInv_repeats (hmoved : 0 < moves) (step : OutboxStep)
    (hrepeats : step.repeats k j db) : balance (outboxStep db step) = balance db := by
  cases step with
  | ensure journal =>
    rcases outboxStep_ensure db journal with hsame | ⟨old, stored, h⟩
    · rw [hsame]
    · exact h.balance_eq
  | ensureWith entity journal row => exact hrepeats.elim
  | reserve journal =>
    show balance (commit db _) = _
    cases hres : reserveTaskSettlementJournal db journal with
    | error e => rfl
    | ok out =>
      obtain ⟨rfl, rfl⟩ := hrepeats
      obtain ⟨_, _, db₁, ensured, now, hens, happly⟩ := reserveTaskSettlementJournal_ok hres
      obtain ⟨old, h⟩ := ensureTaskSettlementJournalTx_ok hens
      have happlied := h.applied_of_remembered hkind (hinv.moved hmoved)
      have hrow := (h.rows journal.requestId).trans (if_pos rfl)
      have hsame := applyStep_of_applied hrow happlied
      simp only [applyStep, happly] at hsame
      subst hsame
      exact h.balance_eq
  | sweep step =>
    cases step with
    | apply id =>
      obtain ⟨rfl, row, hrow, hfact⟩ := hrepeats
      show balance (applyStep db id) = _
      rw [applyStep_of_applied hrow ((hinv.stored row hrow hfact).2 hmoved)]
    | logDone id => exact (markTaskSettlementLogDone_outboxOnly db id).balance_eq
    | delete id => exact (deleteTaskSettlementJournal_outboxOnly db id).balance_eq

end

end Step

/-! ### Whole runs -/

def chargedTask : Task := { id := 1, userId := 1, quota := 100 }

def chargedDatabase : Database :=
  { users := .ofList _ [{ id := 1, quota := 900 }]
    tasks := .ofList _ [chargedTask] }

def chargedRefund : TaskSettlementJournal := refundTaskJournal chargedTask ⟨1⟩

/-- The refund is persisted, applied, deleted and issued again. -/
def refundedTwice : List OutboxStep :=
  [.ensure chargedRefund, .sweep (.apply chargedRefund.requestId),
    .sweep (.logDone chargedRefund.requestId), .sweep (.delete chargedRefund.requestId),
    .ensure chargedRefund, .sweep (.apply chargedRefund.requestId)]

/-- In between, a refund under the id of another task corrects the confirmation, and a reservation
    charges the task again. -/
def strayRefund : List OutboxStep :=
  refundedTwice.take 4 ++ [.ensure { chargedRefund with requestId := refundOperationId (.task, 2) },
    .reserve (reserveTaskJournal { chargedTask with quota := 0 } 100 ⟨2⟩),
    .ensure chargedRefund, .sweep (.apply chargedRefund.requestId)]

variable {row : TaskSettlementJournal}

/-- A transaction of a sweep leaves a pending journal as it is, or applies it. -/
theorem pending_step (hrow : db.journals.get? k = some row) (hpending : row.applied = false)
    (step : SweepStep) : (sweepStep db step).journals.get? k = some row ∨
      step = .apply k ∧ ApplyOutcome db row (appliesNow db k) (applyStep db k) := by
  cases step with
  | apply id =>
    rcases applyStep_cases db id with ⟨hsame, -⟩ | ⟨j, hj, -, hout⟩
    · exact .inl (by rw [sweepStep, hsame, hrow])
    by_cases hk : id = k
    · subst hk
      cases hrow.symm.trans hj
      exact .inr ⟨rfl, hout⟩
    · obtain rfl : j.requestId = id := Table.key_of_get? hj
      exact .inl ((hout.rows hj k).trans (by rw [if_neg (Ne.symm hk), hrow]))
  | logDone id =>
    left
    simp only [sweepStep, markTaskSettlementLogDone, writeJournal]
    grind [Table.get?_set, Table.key_of_get?]
  | delete id =>
    left
    simp only [sweepStep, deleteTaskSettlementJournal]
    grind [Table.get?_erase]

/-- **No pending journal is lost.** In any run of sweeps and workers a journal that is not applied
    stays in the outbox as it is, up to the transaction that applies it. -/
theorem pending_journal_kept (hrow : db.journals.get? k = some row) (hpending : row.applied = false)
    (steps : List SweepStep) : (run sweepStep db steps).journals.get? k = some row ∨
      ∃ before after, steps = before ++ .apply k :: after ∧
        (run sweepStep db before).journals.get? k = some row ∧
        ApplyOutcome (run sweepStep db before) row (appliesNow (run sweepStep db before) k)
          (run sweepStep db (before ++ [.apply k])) := by
  induction steps generalizing db with
  | nil => exact .inl hrow
  | cons step steps ih =>
    rcases pending_step hrow hpending step with hkept | ⟨rfl, hout⟩
    · rcases ih hkept with hend | ⟨before, after, rfl, hout⟩
      · exact .inl hend
      · exact .inr ⟨step :: before, after, rfl, hout⟩
    · exact .inr ⟨[], steps, rfl, hrow, hout⟩

theorem chargedRefund_kept :
    (run sweepStep { chargedDatabase with journals := .ofList _ [chargedRefund] }
      [.delete chargedRefund.requestId]).journals.get? chargedRefund.requestId =
        some chargedRefund := by
  refine (pending_journal_kept (by decide) rfl _).resolve_right ?_
  rintro ⟨before, after, hsteps, -⟩
  have hmem := congrArg (SweepStep.apply chargedRefund.requestId ∈ ·) hsteps
  simp at hmem

end TokenGateway.Billing
