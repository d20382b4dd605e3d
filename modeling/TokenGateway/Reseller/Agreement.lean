import TokenGateway.Billing.AuditSafe
import TokenGateway.Reseller.Funding

namespace TokenGateway.Reseller

open Base Billing

/-!
# The debit of a request and its fact

Each path that moves the money of a personal request computes its amount from a value of its
own: the session, a task's quota, the stored quotas.  Only journals other than reservations are
checked against the stored fact.

* `fundingAudit` — a transaction, with an account of what was debited for the request;
* `FundingSafe` — the condition on a transaction;
* `funding_agrees` — in every run whose transactions meet it, what was debited is the customer
  target of the stored fact;
* `funding_disagrees` — a fact recorded from a stale amount.
-/

/-! ### The audit -/

/-- The snapshot column of a request. -/
def requestFact (db : Database) (id : String) : Option (Option PersonalBillingFact) :=
  (db.requests.get? id).map ResellerRequest.snapshot

/-- What the stored fact of a request says the customer pays; nothing before the first. -/
def paidTarget (db : Database) (id : String) : Int :=
  match requestFact db id with
  | some (some fact) => fact.customerTarget
  | _ => 0

/-- The fact is about the request `id`. -/
def concerns (fact : Option PersonalBillingFact) (id : String) : Bool :=
  fact.any fun f => f.requestId = id

/-- The account that the funding identity of a request names. -/
def requestAccount (db : Database) (id : String) : Option Account :=
  match db.requests.get? id, db.fundingSnapshots.get? id with
  | some state, some funding =>
      some (fundingAccount funding.billingSource state.customerUserId funding.subscriptionId)
  | _, _ => none

/-- What a transaction took from an account. -/
def taken (db db' : Database) (account : Account) : Int := balance db account - balance db' account

/-- What applying a journal debits for the request. -/
def journalDebit (id : String) (db db' : Database) (j : TaskSettlementJournal) : Int :=
  if concerns j.personalFact id then taken db db' j.account else 0

/-- What a transaction debits for the request `id`: a subscription pre-consume counts from its
    due reset, everything else is what left the funding source. -/
def stepDebit (cal : Calendar) (digest : String → String) (id : String) (db : Database)
    (step : PersonalStep) : Int :=
  let db' := personalStep cal digest db step
  match step with
  | .preConsume now params =>
      if concerns params.personalFact id then
        admissionDebit db params.userId (preConsumeBillingBalances cal now db params)
      else 0
  | .reserve params =>
      if concerns params.personalFact id then
        taken db db' (fundingAccount params.billingSource params.userId params.subscriptionId)
      else 0
  | .record _ => 0
  | .outbox (.reserve journal) => journalDebit id db db' journal
  | .outbox (.sweep (.apply k)) =>
      match db.journals.get? k with
      | none => 0
      | some j => journalDebit id db db' j
  | .outbox _ => 0
  | .refundToBase requestId _ _ =>
      if requestId = id then ((requestAccount db id).map (taken db db')).getD 0 else 0

/-- A database and the net debit of the request so far. -/
structure AuditedFunding where
  db : Database
  net : Int := 0

/-- One transaction with its account. -/
def fundingAudit (cal : Calendar) (digest : String → String) (id : String) (s : AuditedFunding)
    (step : PersonalStep) : AuditedFunding :=
  { db := personalStep cal digest s.db step, net := s.net + stepDebit cal digest id s.db step }

/-- **The property**: the net debit is the customer target of the stored fact. -/
structure FundingAgrees (id : String) (s : AuditedFunding) : Prop where
  absent : s.db.requests.get? id = none → s.net = 0
  stored : ∀ state, s.db.requests.get? id = some state →
    ∃ fact, state.snapshot = some fact ∧ s.net = fact.customerTarget

/-! ### The condition -/

/-- A fact of the request that no receipt proves applied yet. -/
def NewFact (db : Database) (id : String) (fact : PersonalBillingFact) : Prop :=
  fact.requestId = id ∧ db.receipts.get? fact.operationId = none

/-- The condition on applying a journal of the request. -/
def ApplySafe (id : String) (db : Database) (j : TaskSettlementJournal) : Prop :=
  concerns j.personalFact id → j.applied = false → Unreceipted db j.toJournalFact →
    FundingExact db j.toJournalFact ∧ (j.operation = .reserve → j.expectedQuota = paidTarget db id)

/-- The condition on a transaction: a direct debit or recorded fact, and a reservation journal,
    starts from the stored target, and a subscription takes and gives back in full. -/
def FundingSafe (digest : String → String) (id : String) (s : AuditedFunding) :
    PersonalStep → Prop
  | .preConsume _ params => ∀ fact, params.personalFact = some fact → NewFact s.db id fact →
      paidTarget s.db id = 0 ∧ (params.billingSource = .subscription →
        s.db.preConsumeRecords.get? params.requestId = none)
  | .reserve params => ∀ fact, params.personalFact = some fact → NewFact s.db id fact →
      fact.customerTarget = paidTarget s.db id + params.amount
  | .record fact => NewFact s.db id fact → fact.customerTarget = paidTarget s.db id
  | .outbox (.reserve journal) => concerns journal.personalFact id →
      Unreceipted s.db journal.toJournalFact → journal.expectedQuota = paidTarget s.db id
  | .outbox (.sweep (.apply k)) => ∀ j, s.db.journals.get? k = some j → ApplySafe id s.db j
  | .outbox _ => True
  | .refundToBase requestId operationId remainingBase => requestId = id →
      ∀ state journal, s.db.requests.get? id = some state →
        planRefundToBase s.db state (digest (requestId ++ ":" ++ operationId)) remainingBase =
          .ok journal →
        FundingExact s.db journal.toJournalFact

/-- A request that does not exist yet: no row and no journal, in a database whose stored facts
    are of their own requests. -/
structure NewRequest (db : Database) (id : String) : Prop where
  absent : db.requests.get? id = none
  journals : ∀ k j, db.journals.get? k = some j → concerns j.personalFact id = false
  facts : ∀ k state fact, db.requests.get? k = some state → state.snapshot = some fact →
    fact.requestId = k

/-! ### The stored facts -/

/-- A transaction left every stored fact as it was. -/
def SameFacts (db db' : Database) : Prop := ∀ id, requestFact db' id = requestFact db id

/-- A transaction stored `fact`, and left the facts of all other requests as they were. -/
def WroteFact (fact : PersonalBillingFact) (db db' : Database) : Prop :=
  ∀ id, requestFact db' id = if fact.requestId = id then some (some fact) else requestFact db id

section Facts

variable {db db₁ db' : Database} {fact : PersonalBillingFact} {id : String}

theorem sameFacts_of_requests (h : db'.requests = db.requests) : SameFacts db db' := by
  intro id
  unfold requestFact
  rw [h]

theorem SameFacts.trans (h : SameFacts db db₁) (h' : SameFacts db₁ db') : SameFacts db db' :=
  fun id => (h' id).trans (h id)

theorem SameFacts.wrote (h : SameFacts db db₁) (h' : WroteFact fact db₁ db') :
    WroteFact fact db db' := by
  intro id
  rw [h', h]

theorem WroteFact.again (h : WroteFact fact db db₁)
    (h' : SameFacts db₁ db' ∨ WroteFact fact db₁ db') : WroteFact fact db db' := by
  intro id
  rcases h' with hsame | hwrote
  · rw [hsame, h]
  · rw [hwrote, h]
    split <;> rfl

theorem SameFacts.paidTarget_eq (h : SameFacts db db') (id : String) :
    paidTarget db' id = paidTarget db id := by
  unfold paidTarget
  rw [h]

theorem WroteFact.paidTarget_own (h : WroteFact fact db db') (hid : fact.requestId = id) :
    paidTarget db' id = fact.customerTarget := by
  unfold paidTarget
  rw [h, if_pos hid]

theorem WroteFact.paidTarget_other (h : WroteFact fact db db') (hid : fact.requestId ≠ id) :
    paidTarget db' id = paidTarget db id := by
  unfold paidTarget
  rw [h, if_neg hid]

theorem concerns_some : concerns (some fact) id = true ↔ fact.requestId = id := by
  simp [concerns]

theorem FactApplied.wrote {next : ResellerRequest} (ha : FactApplied db fact next db') :
    WroteFact fact db db' := by
  have hsnapshot : next.snapshot = some fact := (nextRequest_frame ha.accepted).2.2.2.2.1
  intro id
  unfold requestFact
  rw [ha.requests, Table.get?_set, ha.id_eq]
  split_ifs with hid
  · rw [Option.map_some, hsnapshot]
  · rfl

section

variable (h : applyPersonalBillingFactTx db (some fact) = .ok db')
include h

theorem applyPersonalBillingFactTx_facts :
    (db' = db ∧ db.receipts.get? fact.operationId ≠ none) ∨
      (db.receipts.get? fact.operationId = none ∧ WroteFact fact db db') := by
  rcases applyPersonalBillingFactTx_ok h with ⟨⟨receipt, hr, -⟩, rfl⟩ | ⟨next, ha⟩
  · exact .inl ⟨rfl, by simp [hr]⟩
  · exact .inr ⟨ha.unused, ha.wrote⟩

theorem applyPersonalBillingFactTx_wrote (hnew : db.receipts.get? fact.operationId = none) :
    WroteFact fact db db' := by
  rcases applyPersonalBillingFactTx_facts h with ⟨-, hold⟩ | ⟨-, hwrote⟩
  · exact absurd hnew hold
  · exact hwrote

end

end Facts

/-! ### Journals -/

variable {now : Bool} {old stored : TaskSettlementJournal}

section Journal

variable {db db' : Database} {j : TaskSettlementJournal} {fact : PersonalBillingFact}

theorem validatePersonalJournalBalanceTx_ok (hfact : j.personalFact = some fact)
    (hop : j.operation ≠ .reserve) (h : validatePersonalJournalBalanceTx db j = .ok ()) :
    j.expectedQuota = paidTarget db fact.requestId := by
  unfold validatePersonalJournalBalanceTx at h
  rw [hfact] at h
  simp only [hop, if_false] at h
  unfold paidTarget requestFact
  cases hstate : db.requests.get? fact.requestId with
  | none =>
    simp only [hstate] at h
    split_ifs at h
    assumption
  | some state =>
    simp only [hstate] at h
    cases hsnapshot : state.snapshot with
    | none =>
      simp only [hsnapshot] at h
      cases h
    | some previous =>
      simp only [hsnapshot] at h
      split_ifs at h with hsame
      simp only [not_or, not_not] at hsame
      simpa [hsnapshot] using hsame.2.symm

variable {params : BillingBalanceReserveParams}

theorem reserveBillingBalances_wrote (hfact : params.personalFact = some fact)
    (hnew : db.receipts.get? fact.operationId = none)
    (h : reserveBillingBalances db params = .ok db') : WroteFact fact db db' := by
  obtain ⟨_, ⟨old, receipt, hold, hr, _⟩ | ⟨db₁, db₂, hfund, htoken, happly⟩⟩ :=
    reserveBillingBalances_ok h
  · obtain rfl : fact = old := Option.some.inj (hfact.symm.trans hold)
    rw [hnew] at hr
    cases hr
  · have hrest := (preConsumeTokenBalanceTx_rest htoken).trans
      (congrArg (fun d => { d with tokens := db₂.tokens }) (reserveFundingTx_rest hfund))
    rw [hfact] at happly
    refine (sameFacts_of_requests ?_).wrote (applyPersonalBillingFactTx_wrote happly ?_)
    · rw [hrest]
    · rw [hrest]
      exact hnew

/-- A direct reservation whose fact has a receipt is a replay. -/
theorem reserveBillingBalances_replay {receipt : ResellerBillingReceipt}
    (hfact : params.personalFact = some fact)
    (hreceipt : db.receipts.get? fact.operationId = some receipt)
    (h : reserveBillingBalances db params = .ok db') : db' = db := by
  unfold reserveBillingBalances at h
  split_ifs at h
  obtain ⟨replay, hreplay, hbody⟩ := seq_ok.mp h
  rw [hfact] at hreplay
  rcases personalBillingReplayTx_ok hreplay with ⟨-, hnone⟩ | ⟨rfl, -⟩
  · rw [hreceipt] at hnone
    cases hnone
  · cases hbody
    rfl

theorem reserveBillingBalances_same (hnone : params.personalFact = none)
    (h : reserveBillingBalances db params = .ok db') : SameFacts db db' := by
  obtain ⟨_, ⟨_, _, hfact, _⟩ | ⟨db₁, db₂, hfund, htoken, happly⟩⟩ := reserveBillingBalances_ok h
  · rw [hnone] at hfact
    cases hfact
  rw [hnone] at happly
  cases happly
  refine sameFacts_of_requests ?_
  rw [preConsumeTokenBalanceTx_rest htoken, reserveFundingTx_rest hfund]

theorem moveMoneyTx_same (hnone : j.personalFact = none) (h : moveMoneyTx db j = .ok db') :
    SameFacts db db' := by
  obtain ⟨db₁, db₂, hbal, hent, rfl⟩ := moveMoneyTx_ok h
  have hafter : SameFacts db₁ (applyTaskSettlementUsageTx db₂ j) := sameFacts_of_requests (by
    rw [applyTaskSettlementUsageTx_rest, updateTaskSettlementEntityTx_rest hent])
  rcases moveBalancesTx_ok hbal with ⟨_, _, unlimited, hres⟩ | ⟨_, db₃, hfund, rfl⟩
  · exact (reserveBillingBalances_same hnone hres).trans hafter
  · refine SameFacts.trans (sameFacts_of_requests ?_) hafter
    rw [applyTaskSettlementTokenTx_rest, applyTaskSettlementFundingTx_rest hfund]

/-- Moving the money of a journal with a new fact: a reservation stores it, any other journal
    leaves it for the end of the transaction. -/
theorem moveMoneyTx_facts (hfact : j.personalFact = some fact)
    (hnew : db.receipts.get? fact.operationId = none) (h : moveMoneyTx db j = .ok db') :
    WroteFact fact db db' ∨ (SameFacts db db' ∧ db'.receipts.get? fact.operationId = none) := by
  obtain ⟨db₁, db₂, hbal, hent, rfl⟩ := moveMoneyTx_ok h
  have hafter : SameFacts db₁ (applyTaskSettlementUsageTx db₂ j) := sameFacts_of_requests (by
    rw [applyTaskSettlementUsageTx_rest, updateTaskSettlementEntityTx_rest hent])
  rcases moveBalancesTx_ok hbal with ⟨_, _, unlimited, hres⟩ | ⟨_, db₃, hfund, rfl⟩
  · exact .inl ((reserveBillingBalances_wrote hfact hnew hres).again (.inl hafter))
  refine .inr ⟨SameFacts.trans (sameFacts_of_requests ?_) hafter, ?_⟩
  · rw [applyTaskSettlementTokenTx_rest, applyTaskSettlementFundingTx_rest hfund]
  · rw [applyTaskSettlementUsageTx_rest, updateTaskSettlementEntityTx_rest hent,
      applyTaskSettlementTokenTx_rest, applyTaskSettlementFundingTx_rest hfund]
    exact hnew

/-- The end of an apply transaction stores the journal's fact, unless it is an old one. -/
theorem finished_facts (h : Finished db j db') (hfact : j.personalFact = some fact) :
    fact.customerTarget = j.finalQuota ∧
      ((SameFacts db db' ∧ db.receipts.get? fact.operationId ≠ none) ∨ WroteFact fact db db') := by
  obtain ⟨db₁, hpersonal, hmark⟩ := h.expense
  have hafter : SameFacts db₁ db' := sameFacts_of_requests (by
    rw [(markTaskInvoiceExpenseAppliedTx_expenseOnly hmark).rest]
    rfl)
  unfold applyPersonalJournalTx at hpersonal
  rw [hfact] at hpersonal
  dsimp only at hpersonal
  split_ifs at hpersonal with hchecks
  simp only [not_or, not_not] at hchecks
  refine ⟨hchecks.2, ?_⟩
  -- Writing the funding identity touches neither requests nor receipts.
  obtain ⟨dbF, hreq, hrec, happly⟩ : ∃ dbF : Database, dbF.requests = db.requests ∧
      dbF.receipts = db.receipts ∧ applyPersonalBillingFactTx dbF (some fact) = .ok db₁ := by
    refine ⟨_, ?_, ?_, hpersonal⟩
    · split <;> rfl
    · split <;> rfl
  have hbefore : SameFacts db dbF := sameFacts_of_requests hreq
  rcases applyPersonalBillingFactTx_facts happly with ⟨rfl, hold⟩ | ⟨-, hwrote⟩
  · exact .inl ⟨hbefore.trans hafter, hrec ▸ hold⟩
  · exact .inr ((hbefore.wrote hwrote).again (.inl hafter))

/-- The end of an apply transaction of a journal without a fact. -/
theorem finished_same (h : Finished db j db') (hfact : j.personalFact = none) :
    SameFacts db db' := by
  obtain ⟨db₁, hpersonal, hmark⟩ := h.expense
  unfold applyPersonalJournalTx at hpersonal
  rw [hfact] at hpersonal
  cases hpersonal
  refine sameFacts_of_requests ?_
  rw [(markTaskInvoiceExpenseAppliedTx_expenseOnly hmark).rest]
  rfl

/-- What an apply transaction that moves the money of a journal with a fact does. -/
structure FactMoved (db : Database) (j : TaskSettlementJournal) (fact : PersonalBillingFact)
    (db' : Database) : Prop where
  unapplied : j.applied = false
  unreceipted : Unreceipted db j.toJournalFact
  expected : j.operation ≠ .reserve → j.expectedQuota = paidTarget db fact.requestId
  target : fact.customerTarget = j.finalQuota
  wrote : WroteFact fact db db'
  taken : FundingExact db j.toJournalFact → taken db db' j.account = j.delta

/-- **An apply transaction** of a journal with a fact does nothing but set its flag, or moves the
    money and stores the fact. -/
theorem applyOutcome_facts (hfact : j.personalFact = some fact) (h : ApplyOutcome db j now db') :
    (SameFacts db db' ∧ balance db' = balance db) ∨ FactMoved db j fact db' := by
  cases h with
  | already _ => exact .inl ⟨fun _ => rfl, rfl⟩
  | receipt _ _ =>
    refine .inl ⟨fun _ => rfl, ?_⟩
    funext a
    cases a <;> rfl
  | atTarget _ hnone _ _ =>
    rw [hfact] at hnone
    cases hnone
  | @moved db₁ db' happlied hnew _ hvalid hmove hfinish =>
    obtain ⟨hfinal, hlast⟩ := finished_facts hfinish hfact
    right
    refine ⟨happlied, hnew, fun hop => validatePersonalJournalBalanceTx_ok hfact hop hvalid,
      hfinal, ?_, fun hexact => ?_⟩
    · rcases moveMoneyTx_facts hfact (hnew fact hfact) hmove with hwrote | ⟨hsame, hstill⟩
      · exact hwrote.again (hlast.imp_left And.left)
      · rcases hlast with ⟨-, hold⟩ | hwrote
        · exact absurd hstill hold
        · exact hsame.wrote hwrote
    · have hmoved := (moveMoneyTx_exact_iff hnew hmove).mpr hexact
      unfold taken
      rw [hfinish.balance_eq, hmoved]
      ring

theorem applyOutcome_same (hnone : j.personalFact = none) (h : ApplyOutcome db j now db') :
    SameFacts db db' := by
  cases h with
  | already _ | receipt _ _ => exact fun _ => rfl
  | atTarget _ _ _ hfinish => exact finished_same hfinish hnone
  | moved _ _ _ _ hmove hfinish =>
    exact (moveMoneyTx_same hnone hmove).trans (finished_same hfinish hnone)

/-- The journal of a request's debit is balanced: its delta leads to its final quota. -/
def Balanced (db : Database) (id : String) : Prop :=
  ∀ k j, db.journals.get? k = some j → concerns j.personalFact id →
    j.delta = j.finalQuota - j.expectedQuota

theorem balanced_of_journals {id : String} (h : Balanced db id)
    (hrows : ∀ k new, db'.journals.get? k = some new →
      ∃ k₀ old, db.journals.get? k₀ = some old ∧ old.toJournalFact = new.toJournalFact) :
    Balanced db' id := by
  intro k new hnew hconcerns
  obtain ⟨k₀, old, hold, hsame⟩ := hrows k new hnew
  have hbalanced := h k₀ old hold
  rw [hsame] at hbalanced
  exact hbalanced hconcerns

theorem balanced_same {id : String} (h : Balanced db id) (hjournals : db'.journals = db.journals) :
    Balanced db' id :=
  balanced_of_journals h fun k new hnew => ⟨k, new, hjournals ▸ hnew, rfl⟩

theorem balanced_ensured {id : String} {journal : TaskSettlementJournal}
    (h : Balanced db id) (hens : Ensured db journal old stored db') : Balanced db' id := by
  intro k new hnew hconcerns
  rw [hens.rows] at hnew
  split at hnew
  · obtain rfl := Option.some.inj hnew
    rw [hens.stored_fact.1]
    exact hens.accepted.delta
  · exact h k new hnew hconcerns

end Journal

/-! ### The invariant -/

/-- The net debit is the stored target, every stored fact is of its own request, and the
    journals are balanced. -/
structure FundingInv (id : String) (s : AuditedFunding) : Prop where
  net : s.net = paidTarget s.db id
  stored : requestFact s.db id ≠ some none
  own : ∀ k fact, requestFact s.db k = some (some fact) → fact.requestId = k
  journals : Balanced s.db id

variable {s : AuditedFunding} {key requestId operationId : String}

section Invariant

variable {id : String} {db db' : Database} {net d : Int}

theorem fundingInv_new (h : NewRequest db id) : FundingInv id { db } where
  net := by simp [paidTarget, requestFact, h.absent]
  stored := by simp [requestFact, h.absent]
  own := by
    intro k fact hfact
    obtain ⟨state, hstate, hsnapshot⟩ := Option.map_eq_some_iff.mp hfact
    exact h.facts k state fact hstate hsnapshot
  journals := by
    intro k j hj hconcerns
    rw [h.journals k j hj] at hconcerns
    cases hconcerns

theorem FundingInv.agrees (h : FundingInv id s) : FundingAgrees id s where
  absent := by
    intro hnone
    rw [h.net]
    simp [paidTarget, requestFact, hnone]
  stored := by
    intro state hstate
    have hcolumn : requestFact s.db id = some state.snapshot := by simp [requestFact, hstate]
    cases hsnapshot : state.snapshot with
    | none => exact absurd (hcolumn.trans (congrArg some hsnapshot)) h.stored
    | some fact =>
      refine ⟨fact, rfl, ?_⟩
      rw [h.net, paidTarget, hcolumn, hsnapshot]

/-- A transaction that stores no fact and debits nothing for the request. -/
theorem fundingInv_same (hinv : FundingInv id ⟨db, net⟩) (hsame : SameFacts db db')
    (hjournals : Balanced db' id) (hd : d = 0) : FundingInv id ⟨db', net + d⟩ where
  net := by
    have hnet := hinv.net
    simp only [hsame.paidTarget_eq] at hnet ⊢
    omega
  stored := by
    rw [hsame]
    exact hinv.stored
  own := by
    intro k fact hfact
    exact hinv.own k fact ((hsame k).symm.trans hfact)
  journals := hjournals

variable {fact : PersonalBillingFact}

/-- A transaction that stores a fact, and debits what leads to its target. -/
theorem fundingInv_wrote (hinv : FundingInv id ⟨db, net⟩) (hwrote : WroteFact fact db db')
    (hjournals : Balanced db' id)
    (hown : fact.requestId = id → paidTarget db id + d = fact.customerTarget)
    (hother : fact.requestId ≠ id → d = 0) : FundingInv id ⟨db', net + d⟩ where
  net := by
    have hnet : net = paidTarget db id := hinv.net
    by_cases hid : fact.requestId = id
    · rw [hwrote.paidTarget_own hid, hnet, hown hid]
    · rw [hwrote.paidTarget_other hid, hnet, hother hid, add_zero]
  stored := by
    rw [hwrote]
    split
    · simp
    · exact hinv.stored
  own := by
    intro k stored hstored
    rw [hwrote] at hstored
    split at hstored
    · simp only [Option.some.injEq] at hstored
      rw [← hstored]
      assumption
    · exact hinv.own k stored hstored
  journals := hjournals

/-! ### Journal steps -/

variable {journal : TaskSettlementJournal} {cal : Calendar} {digest : String → String}

section

variable (hinv : FundingInv id ⟨db, net⟩)
include hinv

/-- **Applying a journal.** -/
theorem fundingInv_outcome {j : TaskSettlementJournal}
    (hrow : db.journals.get? j.requestId = some j) (hout : ApplyOutcome db j now db')
    (hsafe : ApplySafe id db j) : FundingInv id ⟨db', net + journalDebit id db db' j⟩ := by
  have hjournals : Balanced db' id := by
    refine balanced_of_journals hinv.journals fun k new hnew => ?_
    rw [hout.rows hrow] at hnew
    split at hnew
    · obtain rfl := Option.some.inj hnew
      exact ⟨j.requestId, j, hrow, rfl⟩
    · exact ⟨k, new, hnew, rfl⟩
  unfold journalDebit
  cases hfact : j.personalFact with
  | none => exact fundingInv_same hinv (applyOutcome_same hfact hout) hjournals rfl
  | some fact =>
    rcases applyOutcome_facts hfact hout with ⟨hsame, hbalance⟩ | hmoved
    · refine fundingInv_same hinv hsame hjournals ?_
      simp [taken, hbalance]
    refine fundingInv_wrote hinv hmoved.wrote hjournals (fun hid => ?_) (fun hid => ?_)
    · have hconcerns : concerns j.personalFact id = true := by
        rw [hfact]
        exact concerns_some.mpr hid
      obtain ⟨hexact, hreserve⟩ := hsafe hconcerns hmoved.unapplied hmoved.unreceipted
      have hexpected : j.expectedQuota = paidTarget db id := by
        by_cases hop : j.operation = .reserve
        · exact hreserve hop
        · exact hid ▸ hmoved.expected hop
      have hdelta := hinv.journals _ j hrow hconcerns
      rw [if_pos (concerns_some.mpr hid), hmoved.taken hexact, hmoved.target]
      omega
    · exact if_neg fun h => hid (concerns_some.mp h)

theorem fundingInv_apply (k : String) (hsafe : ∀ j, db.journals.get? k = some j →
      ApplySafe id db j) :
    FundingInv id ⟨applyStep db k, net + match db.journals.get? k with
      | none => 0
      | some j => journalDebit id db (applyStep db k) j⟩ := by
  rcases applyStep_cases db k with ⟨hsame, -⟩ | ⟨j, hj, -, hout⟩
  · refine fundingInv_same hinv (sameFacts_of_requests (by rw [hsame])) ?_ ?_
    · rw [hsame]
      exact hinv.journals
    · split
      · rfl
      · simp [journalDebit, hsame, taken]
  · have hid : j.requestId = k := Table.key_of_get? hj
    simp only [hj]
    exact fundingInv_outcome hinv (hid ▸ hj) hout (hsafe j hj)

theorem fundingInv_ensured (h : Ensured db journal old stored db') : FundingInv id ⟨db', net + 0⟩ :=
  fundingInv_same hinv (sameFacts_of_requests (by rw [h.rest]))
    (balanced_ensured hinv.journals h) rfl

theorem fundingInv_outboxOnly (h : OutboxOnly db db') : FundingInv id ⟨db', net + 0⟩ := by
  refine fundingInv_same hinv (sameFacts_of_requests (by rw [h.rest])) ?_ rfl
  refine balanced_of_journals hinv.journals fun k new hnew => ?_
  obtain ⟨old, hold, hfact, -⟩ := h.rows k new hnew
  exact ⟨k, old, hold, hfact⟩

theorem fundingInv_persisted {ensured : TaskSettlementJournal} {db₁ : Database}
    (hens : ensureTaskSettlementJournalTx db journal = .ok (ensured, db₁))
    (happly : applyTaskSettlementJournal db₁ journal.requestId = .ok (stored, now, db'))
    (hsafe : concerns journal.personalFact id → Unreceipted db journal.toJournalFact →
      FundingExact db journal.toJournalFact ∧
        (journal.operation = .reserve → journal.expectedQuota = paidTarget db id)) :
    FundingInv id ⟨db', net + journalDebit id db db' journal⟩ := by
  obtain ⟨old, h⟩ := ensureTaskSettlementJournalTx_ok hens
  have hrow : db₁.journals.get? journal.requestId = some ensured :=
    (h.rows journal.requestId).trans (if_pos rfl)
  have hfact : ensured.toJournalFact = journal.toJournalFact := h.stored_fact.1
  have hmid := fundingInv_apply (fundingInv_ensured hinv h) journal.requestId
    fun j hj hconcerns _ hnew => ?_
  · have hdb' : applyStep db₁ journal.requestId = db' := by simp only [applyStep, happly]
    simp only [hrow, hdb', add_zero] at hmid
    have hdebit : journalDebit id db₁ db' ensured = journalDebit id db db' journal := by
      unfold journalDebit taken
      rw [hfact, h.balance_eq]
    rwa [hdebit] at hmid
  · -- persisting writes nothing that the condition reads
    obtain rfl : ensured = j := Option.some.inj (hrow.symm.trans hj)
    rw [hfact] at hconcerns hnew ⊢
    have hunreceipted : Unreceipted db journal.toJournalFact := by
      rwa [h.rest] at hnew
    obtain ⟨hexact, hreserve⟩ := hsafe hconcerns hunreceipted
    refine ⟨?_, fun hop => ?_⟩
    · unfold FundingExact RecordCovers at hexact ⊢
      rw [h.rest]
      exact hexact
    · rw [hreserve hop, (sameFacts_of_requests (by rw [h.rest]) : SameFacts db db₁).paidTarget_eq]

end

theorem fundingExact_reserve {j : JournalFact} (hop : j.operation = .reserve)
    (hpos : 0 < j.delta) : FundingExact db j := by
  have hplain : ¬ j.refundsRecord := fun h => by
    rw [JournalFact.refundsRecord, hop] at h
    exact absurd h.2.1 (by decide)
  refine .inr (.inr ?_)
  rw [if_neg hplain]
  have hle := balance_subscription_nonpos db j.subscriptionId
  omega

theorem fundingInv_ensureWith {entity : SettlementEntity}
    {row : Task} (hinv : FundingInv id ⟨db, net⟩)
    (h : ensureJournalWithEntity entity db journal row = .ok (stored, db')) :
    FundingInv id ⟨db', net + 0⟩ := by
  obtain ⟨db₁, bound, hbound, htx⟩ := ensureJournalWithEntity_ok h
  obtain ⟨old, hens⟩ := ensureTaskSettlementJournalTx_ok htx
  have hmid := fundingInv_same hinv hbound.snapshots (balanced_same hinv.journals hbound.journals)
    rfl
  have hstored : FundingInv id ⟨db₁, net⟩ := by simpa using hmid
  exact fundingInv_ensured hstored hens

/-- **A transaction on the outbox.** -/
theorem fundingInv_outbox (hinv : FundingInv id s) (step : OutboxStep)
    (hsafe : FundingSafe digest id s (.outbox step)) :
    FundingInv id (fundingAudit cal digest id s (.outbox step)) := by
  obtain ⟨db, net⟩ := s
  have hquiet : FundingInv id ⟨db, net + 0⟩ := by simpa using hinv
  cases step with
  | ensure journal =>
    show FundingInv id ⟨outboxStep db (.ensure journal), net + 0⟩
    rcases outboxStep_ensure db journal with hsame | ⟨old, stored, h⟩
    · rw [hsame]
      exact hquiet
    · exact fundingInv_ensured hinv h
  | ensureWith entity journal row =>
    show FundingInv id ⟨commit db _, net + 0⟩
    cases hens : ensureJournalWithEntity entity db journal row with
    | error e => exact hquiet
    | ok out => exact fundingInv_ensureWith hinv hens
  | reserve journal =>
    show FundingInv id ⟨commit db _, net + journalDebit id db (commit db _) journal⟩
    cases hres : reserveTaskSettlementJournal db journal with
    | error e =>
      have hzero : journalDebit id db db journal = 0 := by simp [journalDebit, taken]
      exact fundingInv_same hinv (fun _ => rfl) hinv.journals hzero
    | ok out =>
      obtain ⟨hop, hpos, db₁, ensured, now, hens, happly⟩ := reserveTaskSettlementJournal_ok hres
      exact fundingInv_persisted hinv hens happly fun hconcerns hnew =>
        ⟨fundingExact_reserve hop hpos, fun _ => hsafe hconcerns hnew⟩
  | sweep step =>
    cases step with
    | apply k => exact fundingInv_apply hinv k hsafe
    | logDone k => exact fundingInv_outboxOnly hinv (markTaskSettlementLogDone_outboxOnly db k)
    | delete k => exact fundingInv_outboxOnly hinv (deleteTaskSettlementJournal_outboxOnly db k)

/-! ### Direct steps -/

section

variable (hinv : FundingInv id ⟨db, net⟩)
include hinv

/-- A fact that commits on its own or after a debit: an old one changes nothing. -/
theorem fundingInv_record (h : recordPersonalReservation db fact = .ok db')
    (hsafe : NewFact db id fact → fact.customerTarget = paidTarget db id) :
    FundingInv id ⟨db', net + 0⟩ := by
  have hjournals : db'.journals = db.journals := by rw [applyPersonalBillingFactTx_rest h]
  have hbalanced := balanced_same hinv.journals hjournals
  rcases applyPersonalBillingFactTx_facts h with ⟨rfl, -⟩ | ⟨hnew, hwrote⟩
  · exact fundingInv_same hinv (fun _ => rfl) hbalanced rfl
  · refine fundingInv_wrote hinv hwrote hbalanced (fun hid => ?_) (fun _ => rfl)
    rw [hsafe ⟨hid, hnew⟩, add_zero]

theorem fundingInv_reserve {params : BillingBalanceReserveParams}
    (h : reserveBillingBalances db params = .ok db')
    (hsafe : ∀ fact, params.personalFact = some fact → NewFact db id fact →
      fact.customerTarget = paidTarget db id + params.amount) :
    FundingInv id ⟨db', net + if concerns params.personalFact id then
      taken db db' (fundingAccount params.billingSource params.userId params.subscriptionId)
      else 0⟩ := by
  have hbalanced : Balanced db' id :=
    balanced_same hinv.journals (by rw [reserveBillingBalances_rest h])
  cases hfact : params.personalFact with
  | none => exact fundingInv_same hinv (reserveBillingBalances_same hfact h) hbalanced rfl
  | some fact =>
    cases hreceipt : db.receipts.get? fact.operationId with
    | some receipt =>
      obtain rfl := reserveBillingBalances_replay hfact hreceipt h
      refine fundingInv_same hinv (fun _ => rfl) hbalanced ?_
      simp [taken]
    | none =>
      refine fundingInv_wrote hinv (reserveBillingBalances_wrote hfact hreceipt h) hbalanced
        (fun hid => ?_) (fun hid => if_neg fun hc => hid (concerns_some.mp hc))
      have hnew : ∀ f, params.personalFact = some f → db.receipts.get? f.operationId = none := by
        intro f hf
        obtain rfl : fact = f := Option.some.inj (hfact.symm.trans hf)
        exact hreceipt
      have htaken : taken db db'
          (fundingAccount params.billingSource params.userId params.subscriptionId)
          = params.amount := by
        unfold taken
        have htoken : (if params.applyToken then tokenPosting params.tokenId params.amount else 0)
            (fundingAccount params.billingSource params.userId params.subscriptionId)
            = (0 : Int) := by
          unfold tokenPosting fundingAccount
          split
          · split <;> simp
          · rfl
        rw [reserveBillingBalances_balance h hnew, Pi.add_apply, Pi.add_apply, Pi.single_eq_same]
        omega
      rw [if_pos (concerns_some.mpr hid), htaken, hsafe fact hfact ⟨hid, hreceipt⟩]

theorem fundingInv_preConsume {now : Int} {params : BillingBalancePreConsumeParams}
    {result : Option SubscriptionPreConsumeResult}
    (h : preConsumeBillingBalances cal now db params = .ok (result, db'))
    (hsafe : ∀ fact, params.personalFact = some fact → NewFact db id fact →
      paidTarget db id = 0 ∧ (params.billingSource = .subscription →
        db.preConsumeRecords.get? params.requestId = none)) :
    FundingInv id ⟨db', net + if concerns params.personalFact id then
      admissionDebit db params.userId (.ok (result, db')) else 0⟩ := by
  obtain ⟨-, hnonneg, ⟨-, rfl, rfl⟩ | hadmitted⟩ := preConsumeBillingBalances_ok h
  · refine fundingInv_same hinv (fun _ => rfl) hinv.journals ?_
    simp [admissionDebit]
  obtain ⟨dbF, dbT, dbR, hfund, htoken, hrecord, happly⟩ := hadmitted.statements
  have hmid : SameFacts db dbT ∧ dbT.journals = db.journals ∧ dbT.users = dbF.users ∧
    dbT.receipts = db.receipts := by
    have htables := (preConsumeTokenBalanceTx_rest htoken).trans
      (congrArg (fun d => { d with tokens := dbT.tokens }) (preConsumeFundingTx_rest hfund))
    refine ⟨sameFacts_of_requests (by rw [htables]), by rw [htables], ?_, by rw [htables]⟩
    rw [preConsumeTokenBalanceTx_rest htoken]
  rcases recordPersonalFundingTx_ok hrecord with ⟨hnone, rfl⟩ | ⟨fact, hfact, -, hamount, -, -, hR⟩
  · rw [hnone] at happly ⊢
    cases happly
    exact fundingInv_same hinv hmid.1 (balanced_same hinv.journals hmid.2.1) rfl
  · have hnew := hadmitted.unused fact hfact
    rw [hfact] at happly ⊢
    have hwrote : WroteFact fact dbR db' := applyPersonalBillingFactTx_wrote happly (by
      rw [hR]
      exact hmid.2.2.2 ▸ hnew)
    have hsame : SameFacts db dbR := hmid.1.trans (sameFacts_of_requests (by rw [hR]))
    have hjournals : db'.journals = db.journals := by
      rw [applyPersonalBillingFactTx_rest happly, hR]
      exact hmid.2.1
    refine fundingInv_wrote hinv (hsame.wrote hwrote)
      (balanced_same hinv.journals hjournals) (fun hid => ?_)
      (fun hid => if_neg fun hc => hid (concerns_some.mp hc))
    obtain ⟨hzero, hfresh⟩ := hsafe fact hfact ⟨hid, hnew⟩
    have husers : db'.users = dbF.users := by
      rw [applyPersonalBillingFactTx_rest happly, hR]
      exact hmid.2.2.1
    have hdebit := (preConsumeFundingTx_debits hnonneg (fun hs _ => hfresh hs) hfund).1 db' husers
    rw [if_pos (concerns_some.mpr hid), hzero, hdebit, hamount, zero_add]

end

/-! ### The cumulative refund -/

variable {remainingBase : Int} {applied : Option TaskSettlementJournal}

theorem refundFact_ok {new : PersonalBillingFact}
    (h : refundFact fact key remainingBase = .ok new) : new.requestId = fact.requestId := by
  obtain ⟨customer, -, hbody⟩ := seq_ok.mp h
  obtain ⟨agent, -, hrest⟩ := seq_ok.mp hbody
  cases hrest
  rfl

/-- The planned journal debits the funding account of the request, for a fact of the request. -/
theorem planRefundToBase_ok {state : ResellerRequest}
    (h : planRefundToBase db state key remainingBase = .ok journal) :
    ∃ last fact funding, state.snapshot = some last ∧
      db.fundingSnapshots.get? state.id = some funding ∧
      journal.personalFact = some fact ∧ fact.requestId = last.requestId ∧
      journal.operation = .refund ∧
      journal.account = fundingAccount funding.billingSource state.customerUserId
        funding.subscriptionId := by
  unfold planRefundToBase at h
  split at h
  · split at h
    · cases h
    split at h
    · cases h
    rename_i last hlast
    obtain ⟨fact, hfact, hbody⟩ := seq_ok.mp h
    split at hbody
    · cases hbody
    rename_i funding hfunding
    cases hbody
    exact ⟨last, fact, funding, hlast, hfunding, rfl, refundFact_ok hfact, rfl, rfl⟩
  · cases h

theorem applyPersonalRefundToBase_ok
    (h : applyPersonalRefundToBase digest db requestId operationId remainingBase =
      .ok (applied, db')) :
    db' = db ∨ ∃ state journal ensured stored db₁ now, db.requests.get? requestId = some state ∧
      planRefundToBase db state (digest (requestId ++ ":" ++ operationId)) remainingBase =
        .ok journal ∧
      ensureTaskSettlementJournalTx db journal = .ok (ensured, db₁) ∧
      applyTaskSettlementJournal db₁ journal.requestId = .ok (stored, now, db') := by
  unfold applyPersonalRefundToBase at h
  split_ifs at h
  dsimp only at h
  split at h
  · cases h
  rename_i state hstate
  split at h
  · split_ifs at h
    cases h
    exact .inl rfl
  · obtain ⟨journal, hplan, hbody⟩ := seq_ok.mp h
    obtain ⟨⟨ensured, db₁⟩, hens, hbody⟩ := seq_ok.mp hbody
    obtain ⟨⟨stored, now, db₂⟩, happly, hbody⟩ := seq_ok.mp hbody
    cases hbody
    exact .inr ⟨state, journal, ensured, stored, db₁, now, hstate, hplan, hens, happly⟩

theorem fundingInv_refundToBase (hinv : FundingInv id ⟨db, net⟩)
    (h : applyPersonalRefundToBase digest db requestId operationId remainingBase =
      .ok (applied, db'))
    (hsafe : FundingSafe digest id ⟨db, net⟩ (.refundToBase requestId operationId remainingBase)) :
    FundingInv id ⟨db', net +
      if requestId = id then ((requestAccount db id).map (taken db db')).getD 0 else 0⟩ := by
  rcases applyPersonalRefundToBase_ok h with
    rfl | ⟨state, journal, ensured, stored, db₁, now, hstate, hplan, hens, happly⟩
  · refine fundingInv_same hinv (fun _ => rfl) hinv.journals ?_
    cases requestAccount db' id <;> simp [taken]
  obtain ⟨last, fact, funding, hlast, hfunding, hfact, hid, hop, haccount⟩ :=
    planRefundToBase_ok hplan
  have hkey : state.id = requestId := Table.key_of_get? hstate
  -- the last fact is of the request, so the planned one is
  have hown : last.requestId = requestId := by
    refine hinv.own requestId last ?_
    simp [requestFact, hstate, hlast]
  have hconcerns : concerns journal.personalFact id = true ↔ requestId = id := by
    rw [hfact, concerns_some, hid, hown]
  have hmid := fundingInv_persisted hinv hens happly fun hc _ =>
    ⟨hsafe (hconcerns.mp hc) state journal ((hconcerns.mp hc) ▸ hstate) hplan,
      fun hreserve => absurd (hop.symm.trans hreserve) (by decide)⟩
  have hdebit : journalDebit id db db' journal
      = if requestId = id then ((requestAccount db id).map (taken db db')).getD 0 else 0 := by
    unfold journalDebit
    by_cases hreq : requestId = id
    · have hrequest : requestAccount db id = some journal.account := by
        subst hreq
        rw [hkey] at hfunding
        simp [requestAccount, hstate, hfunding, haccount]
      rw [if_pos (hconcerns.mpr hreq), if_pos hreq, hrequest]
      rfl
    · rw [if_neg fun hc => hreq (hconcerns.mp hc), if_neg hreq]
  rwa [hdebit] at hmid

/-! ### Whole runs -/

/-- **One transaction.** -/
theorem fundingInv_step (s : AuditedFunding) (step : PersonalStep) (hinv : FundingInv id s)
    (hsafe : FundingSafe digest id s step) : FundingInv id (fundingAudit cal digest id s step) := by
  obtain ⟨db, net⟩ := s
  cases step with
  | preConsume now params =>
    simp only [fundingAudit, stepDebit, personalStep]
    cases h : preConsumeBillingBalances cal now db params with
    | error e =>
      refine fundingInv_same hinv (fun _ => rfl) hinv.journals ?_
      simp [admissionDebit]
    | ok out => exact fundingInv_preConsume hinv h hsafe
  | reserve params =>
    simp only [fundingAudit, stepDebit, personalStep]
    cases h : reserveBillingBalances db params with
    | error e =>
      refine fundingInv_same hinv (fun _ => rfl) hinv.journals ?_
      simp [taken]
    | ok db' => exact fundingInv_reserve hinv h hsafe
  | record fact =>
    simp only [fundingAudit, personalStep]
    cases h : recordPersonalReservation db fact with
    | error e => exact fundingInv_same hinv (fun _ => rfl) hinv.journals rfl
    | ok db' => exact fundingInv_record hinv h hsafe
  | outbox step => exact fundingInv_outbox hinv step hsafe
  | refundToBase requestId operationId remainingBase =>
    simp only [fundingAudit, stepDebit, personalStep]
    cases h : applyPersonalRefundToBase digest db requestId operationId remainingBase with
    | error e =>
      refine fundingInv_same hinv (fun _ => rfl) hinv.journals ?_
      cases requestAccount db id <;> simp [taken, Except.map]
    | ok out => exact fundingInv_refundToBase hinv h hsafe

end Invariant

/-- **The debit of a request is the customer target of its fact**: in every state of a run from
    before the request, in any interleaving of its transactions that meet the condition. -/
theorem funding_agrees (cal : Calendar) (digest : String → String) (id : String) (db : Database)
    (steps : List PersonalStep) (hnew : NewRequest db id)
    (hsafe : Along (fundingAudit cal digest id) (FundingSafe digest id) { db } steps) :
    FundingAgrees id (run (fundingAudit cal digest id) { db } steps) :=
  (invariant_along (I := FundingInv id) fundingInv_step _ _ (fundingInv_new hnew) hsafe).agrees

def customerDatabase : Database :=
  { users := .ofList _ [{ id := 3, quota := 500 }] }

def customerFact (operationId : String) (kind : FactKind) (target : Int) : PersonalBillingFact :=
  { requestId := "request", operationId := operationId, kind := kind, userId := 3,
    agentUserId := 0, baseQuota := target, customerTarget := target, agentTarget := 0 }

def customerAdmission : PersonalStep :=
  .preConsume 0
    { personalFact := some (customerFact "preconsume" .reserve 100), requestId := "request",
      userId := 3, amount := 100, billingSource := .wallet, tokenId := 0, applyToken := false,
      tokenUnlimited := false }

/-- The settlement of the reservation. -/
def customerSettlement : TaskSettlementJournal :=
  { personalFact := some (customerFact "settle" .settle 90), requestId := "settlement",
    operation := .settle, expectedQuota := 120, finalQuota := 90, userId := 3,
    billingSource := .wallet, delta := -30 }

/-- Pre-consumed, reserved further, settled and partly refunded. -/
def customerRun : List PersonalStep :=
  [customerAdmission, .reserve
      { personalFact := some (customerFact "reserve" .reserve 120), requireAvailableQuota := true,
        userId := 3, amount := 20, billingSource := .wallet, subscriptionId := 0, tokenId := 0,
        applyToken := false, tokenUnlimited := false },
    .outbox (.ensure customerSettlement), .outbox (.sweep (.apply "settlement")),
    .refundToBase "request" "first" 40]

theorem customerDatabase_new : NewRequest customerDatabase "request" :=
  ⟨rfl, fun _ _ h => (nomatch h), fun _ _ _ h => (nomatch h)⟩

theorem customerRun_agrees :
    FundingAgrees "request"
      (run (fundingAudit fixedCalendar id "request") { db := customerDatabase } customerRun) := by
  refine funding_agrees _ _ _ _ _ customerDatabase_new ⟨?_, ?_, ?_, ?_, ?_, ?_⟩
  · rintro fact - -
    exact ⟨by decide, fun h => by cases h⟩
  · rintro fact hfact -
    cases hfact
    decide
  · trivial
  · rintro j hj - - -
    cases hj
    exact ⟨.inr (.inl (by decide)), fun h => by cases h⟩
  · rintro - state journal hstate hplan
    cases hstate
    cases hplan
    exact .inr (.inl (by decide))
  · trivial

/-- **The debit and the fact part** when a delivery, priced by the task's own quota, records its
    fact after a refund that left the quota alone. -/
theorem funding_disagrees :
    ¬ FundingAgrees "request"
      (run (fundingAudit fixedCalendar id "request") { db := customerDatabase }
        (customerRun ++ [.record (customerFact "delivery" .pending 90)])) := by
  intro h
  obtain ⟨fact, hfact, hnet⟩ := h.stored _ rfl
  cases hfact
  exact absurd hnet (by decide)

/-- **A reservation asked for again** at the same price takes nothing more. -/
theorem reservePersonal_again {s s' : PersonalSession} {db db' : Database}
    {priced : Except BillingError PersonalBillingFact}
    (h : reservePersonal s db priced = .ok (s', db')) :
    reservePersonal s' db' priced = .ok (s', db') := by
  have hfirst := h
  unfold reservePersonal at h
  split at h
  · cases h
  next hopen =>
  split at h
  · cases h
    exact hfirst
  obtain ⟨fact, hfact, h⟩ := seq_ok.mp h
  dsimp only at h
  split at h
  · cases h
    exact hfirst
  obtain ⟨db₁, -, h⟩ := seq_ok.mp h
  cases h
  -- the session remembers the fact at the target it now holds
  have hsync : ∀ b : BillingSession, b.syncRelayInfo.preConsumedQuota = b.preConsumedQuota ∧
      b.syncRelayInfo.settled = b.settled ∧ b.syncRelayInfo.refunded = b.refunded := by
    intro b
    unfold BillingSession.syncRelayInfo
    split <;> exact ⟨rfl, rfl, rfl⟩
  rw [reservePersonal, hfact]
  simp [hsync, hopen, PersonalSession.alreadyReserved, bind, Except.bind]

def customerSession : PersonalSession :=
  { relayInfo := { requestId := "request", userId := 3, tokenId := 0, isPlayground := true }
    funding := .wallet, agentUserId := 0 }

theorem customer_reserves_once :
    let priced := Except.ok (customerFact "reserve" .reserve 120)
    ∃ out, reservePersonal customerSession customerDatabase priced = .ok out ∧
      reservePersonal out.1 out.2 priced = .ok out ∧ balance out.2 (.wallet 3) = 380 :=
  ⟨_, rfl, @reservePersonal_again customerSession _ customerDatabase _ _ rfl, rfl⟩

end TokenGateway.Reseller
