import TokenGateway.Billing.AuditRun

namespace TokenGateway.Billing

open Base Reseller BillingSession

/-!
# Every run of a billing session

The calls on a session, and the runs of calls and sweeps.

* `auditStep_preConsume`, …, `auditStep_refund` — safe calls keep the invariant;
* `session_exact` — along every safe run of a fresh session the property holds;
* `session_settled_and_refunded` — without the condition both journals move money.
-/

variable {cal : Calendar} {newId : String}

/-! ### Pre-consume -/

variable {s : AuditedSession} {fault : Bool} {quota now : Int} {rich : Bool}

theorem auditStep_unadmitted (session : BillingSession) (hinv : SessionInv newId s)
    (hnext : sessionStep cal newId s.toSessionState (.preConsume quota now rich fault)
      = { s.toSessionState with session := session }) (hsession : SameMoney newId s.session session)
    (hfund : fundingDebit cal newId s.toSessionState (.preConsume quota now rich fault) = 0) :
    SessionInv newId (auditStep cal newId s (.preConsume quota now rich fault)) := by
  refine auditStep_quiet hinv hnext (.refl _) (.refl _ s.db) hsession ⟨hfund, ?_⟩ nofun
  unfold tokenDebit
  rw [hnext]
  simp

/-- The same request; it may get a subscription. -/
def SameRequest (a b : RelayInfo) : Prop := b = { a with subscriptionId := b.subscriptionId }

theorem SameRequest.billingId {s s' : BillingSession} (h : SameRequest s.relayInfo s'.relayInfo) :
    s'.billingId newId = s.billingId newId := by
  unfold BillingSession.billingId
  rw [h]

/-- No journal of the session exists before one is opened. -/
theorem SessionInv.closed (hinv : SessionInv newId s) (hopened : s.opened = false) :
    ClosedPhase newId s := by
  rcases hinv.phase with hclosed | ⟨_, _, hopen⟩
  · exact hclosed
  · cases hopen.opened.symm.trans hopened

variable {step : SessionStep} {amount : Int} {db' : Database} {session : BillingSession}

/-- Pre-consuming or reserving before any journal adds to both sides of the invariant. -/
theorem auditStep_debited
    (hinv : SessionInv newId s) (hclosed : ClosedPhase newId s) (hamount : 0 ≤ amount)
    (hnext : sessionStep cal newId s.toSessionState step =
      { s.toSessionState with db := db', session := session })
    (happ : appliedId s.toSessionState step = none)
    (hsame : SameRequest s.session.relayInfo session.relayInfo)
    (hpre : session.preConsumedQuota = s.session.preConsumedQuota + amount)
    (hconsumed : session.tokenConsumed = session.preConsumedQuota)
    (hknown : FundingKnown newId { s with db := db', session := session })
    (hjournals : db'.journals = s.db.journals) (htokens : SameTokens s.db db')
    (hfunding : fundingDebit cal newId s.toSessionState step = amount)
    (htoken : tokenDebit cal newId s.toSessionState step =
      if TokenBilled s.toSessionState then amount else 0) :
    SessionInv newId (auditStep cal newId s step) := by
  have hjid : ∀ refund, session.journalId newId refund = s.session.journalId newId refund := by
    intro refund
    unfold journalId
    rw [hsame.billingId]
  have hmoved : (auditStep cal newId s step).settleMoved = s.settleMoved ∧
      (auditStep cal newId s step).refundMoved = s.refundMoved := by
    simp [auditStep, happ]
  have hnet : (auditStep cal newId s step).fundingNet = s.fundingNet + amount := by
    rw [← hfunding]
    rfl
  have hnonneg := hinv.nonneg
  have hstate : (auditStep cal newId s step).toSessionState
      = { s.toSessionState with db := db', session := session } := hnext
  refine ⟨?_, ?_, ?_, ?_, ?_, .inl ⟨?_, ?_, ?_, ?_, ?_⟩⟩
  · intro k row hrow hk
    rw [hstate] at hrow hk ⊢
    rw [hsame.billingId]
    exact hinv.unnamed k row (hjournals ▸ hrow) fun refund => hjid refund ▸ hk refund
  · rw [hstate]
    show 0 ≤ session.preConsumedQuota
    omega
  · rw [hstate]
    exact hconsumed
  · unfold FundingKnown
    rw [hstate, hmoved.2]
    exact hknown
  · have hbilled : TokenBilled { s.toSessionState with db := db', session := session } ↔
        TokenBilled s.toSessionState := by
      unfold TokenBilled
      rw [hsame, htokens]
    rw [hstate]
    show s.tokenNet + tokenDebit cal newId s.toSessionState step = _
    rw [htoken, hinv.token]
    simp only [hbilled]
    split <;> omega
  · simp [auditStep, hnext, hclosed.opened, hclosed.inFlight]
  · rw [hstate]
    exact hclosed.inFlight
  · intro refund
    rw [hstate, hjid, hjournals, hclosed.rows]
  · intro refund
    have hunmoved := hclosed.unmoved refund
    cases refund
    · exact hmoved.1.trans hunmoved
    · exact hmoved.2.trans hunmoved
  · rw [hnet, hclosed.net, hstate, hpre]

theorem afterPreConsume_fields (s : BillingSession) (amount : Int)
    (result : Option SubscriptionPreConsumeResult) :
    SameRequest s.relayInfo (s.afterPreConsume amount result).relayInfo ∧
      (s.afterPreConsume amount result).preConsumedQuota = amount ∧
      (s.afterPreConsume amount result).tokenConsumed = if 0 < amount
        then amount else s.tokenConsumed := by
  unfold afterPreConsume syncRelayInfo
  dsimp only
  split <;> exact ⟨rfl, rfl, rfl⟩

/-- The subscription of a session whose admission found no record, after the admission. -/
theorem fundingKnown_afterPreConsume {s' : AuditedSession}
    {result : Option SubscriptionPreConsumeResult} (hknown : FundingKnown newId s)
    (hpre : s.session.preConsumedQuota = 0) (hunmoved : s.refundMoved = false)
    (hfunding : session.funding = s.session.funding)
    (hid : session.relayInfo.requestId = s.session.relayInfo.requestId)
    (hnext : s'.session = session.afterPreConsume amount result)
    (hresult : (result = none ∧ (s.session.funding.source = .subscription → amount = 0) ∧
          s'.db.preConsumeRecords = s.db.preConsumeRecords) ∨
        (0 < amount ∧ ∃ res record, result = some res ∧ res.preConsumed = amount ∧
          s.session.relayInfo.requestId ≠ "" ∧
          s'.db.preConsumeRecords.get? s.session.relayInfo.requestId = some record ∧
          record.preConsumed = amount ∧ record.userSubscriptionId = res.userSubscriptionId ∧
          record.status ≠ .refunded)) : FundingKnown newId s' := by
  intro subscriptionId preConsumed hfund
  rw [hnext] at hfund ⊢
  obtain ⟨hsame, hamount, -⟩ := afterPreConsume_fields session amount result
  have hbill : (session.afterPreConsume amount result).billingId newId =
    s.session.billingId newId := by
    rw [hsame.billingId, billingId, hid, billingId]
  cases hf : s.session.funding with
  | wallet =>
    rw [hf] at hfunding
    simp only [afterPreConsume, hfunding] at hfund
    cases hfund
  | subscription sid p =>
    obtain ⟨hsid, hrest⟩ := hknown sid p hf
    rw [hf] at hfunding hresult
    rcases hresult with ⟨rfl, hzero, hrecords⟩ | ⟨hpos, res, record, rfl, hres, hne, hr, hrp, hrs,
      hlive⟩
    · -- nothing was charged, and nothing had been before
      simp only [afterPreConsume, hfunding] at hfund
      obtain ⟨rfl, rfl⟩ := FundingSource.subscription.inj hfund
      rcases hrest with ⟨h0, hs0, _, hnone⟩ | ⟨hp, hle, _⟩
      · refine ⟨?_, .inl ⟨h0, hs0, ?_, fun _ => ?_⟩⟩
        · simp [afterPreConsume, syncRelayInfo, hfunding]
        · rw [hamount, hzero rfl]
        · rw [hbill, hrecords]
          exact hnone hunmoved
      · omega
    · simp only [afterPreConsume, hfunding] at hfund
      obtain ⟨rfl, rfl⟩ := FundingSource.subscription.inj hfund
      refine ⟨?_, .inr ⟨by omega, ?_, fun _ => ⟨record, ?_, by omega, hrs, hlive⟩⟩⟩
      · simp [afterPreConsume, syncRelayInfo, hfunding]
      · omega
      · rw [hbill, billingId, if_neg hne, hr]

theorem trusted_sameMoney (newId : String) (s : BillingSession) (rich : Bool) :
    SameMoney newId s (if s.shouldTrust rich then { s with trusted := true } else s) := by
  split <;> exact ⟨rfl, rfl, rfl, rfl, rfl, rfl, rfl, rfl⟩

theorem auditStep_preConsume (hinv : SessionInv newId s)
    (hsafe : StepSafe newId s (.preConsume quota now rich fault)) :
    SessionInv newId (auditStep cal newId s (.preConsume quota now rich fault)) := by
  by_cases hwait : s.inFlight.isSome = true
  · refine auditStep_unadmitted s.session hinv ?_ (.refl newId s.session) ?_
    · simp [sessionStep, hwait]
    · simp [fundingDebit, hwait]
  by_cases hfault : fault = true
  · refine auditStep_unadmitted _ hinv ?_ (trusted_sameMoney newId s.session rich) ?_
    · simp [sessionStep, hwait, preConsume, hfault]
    · simp [fundingDebit, hfault]
  obtain ⟨hpre, hopened⟩ : s.session.preConsumedQuota = 0 ∧ s.opened = false := by
    rcases hsafe with h | h | h
    · exact absurd h hwait
    · exact absurd h hfault
    · exact h
  have hclosed := hinv.closed hopened
  have hmoney := trusted_sameMoney newId s.session rich
  have hrequest : (if s.session.shouldTrust rich then { s.session with trusted := true }
      else s.session).relayInfo = s.session.relayInfo := by
    split <;> rfl
  generalize hs₁ : (if s.session.shouldTrust rich then { s.session with trusted := true }
    else s.session) = session at hmoney hrequest
  generalize ham : (if s.session.shouldTrust rich then 0 else quota) = amount
  have hparams : session.preConsumeParams amount = s.session.preConsumeParams amount := by
    unfold preConsumeParams
    rw [hrequest, hmoney.funding]
  cases hadmit : preConsumeBillingBalances cal now s.db (s.session.preConsumeParams amount) with
  | error e =>
    refine auditStep_unadmitted _ hinv ?_ hmoney ?_
    · simp [sessionStep, hwait, preConsume, hs₁, ham, hparams, hadmit]
    · simp [fundingDebit, ham, hadmit, admissionDebit]
  | ok out =>
    obtain ⟨result, db'⟩ := out
    have hnext : sessionStep cal newId s.toSessionState (.preConsume quota now rich fault)
        = { s.toSessionState with
            db := db', session := session.afterPreConsume amount result } := by
      simp [sessionStep, hwait, preConsume, hfault, hs₁, ham, hparams, hadmit]
    have hnone : s.session.funding.source = .subscription →
        s.session.relayInfo.requestId ≠ "" →
        s.db.preConsumeRecords.get? s.session.relayInfo.requestId = none := by
      intro hsrc hne
      have hbilling : s.session.billingId newId = s.session.relayInfo.requestId := if_neg hne
      cases hf : s.session.funding with
      | wallet =>
        rw [hf] at hsrc
        cases hsrc
      | subscription sid p =>
        rcases (hinv.funding sid p hf).2 with ⟨_, _, _, hnone⟩ | ⟨hp, hle, _⟩
        · rw [← hbilling]
          exact hnone (hclosed.unmoved true)
        · omega
    obtain ⟨_, hnonneg, ⟨⟨fact, _, hfact, _⟩, _⟩ | hrun⟩ := preConsumeBillingBalances_ok hadmit
    · cases hfact
    obtain ⟨dbF, dbT, hfund, htoken, hrest⟩ := hrun.balances
    have hT := preConsumeTokenBalanceTx_rest htoken
    have husers : db'.users = dbF.users := by rw [hrest, hT]
    have hrecords : db'.preConsumeRecords = dbF.preConsumeRecords := by rw [hrest, hT]
    have hjournals : db'.journals = s.db.journals := by
      rw [hrest, hT, preConsumeFundingTx_rest hfund]
    obtain ⟨hdebit, hresult⟩ := preConsumeFundingTx_debits hnonneg hnone hfund
    rw [← hrecords] at hresult
    obtain ⟨hcharge, htokens⟩ := hrun.tokenCharge
    obtain ⟨hsame, hquota, hconsumed⟩ := afterPreConsume_fields session amount result
    rw [hrequest] at hsame
    have hzero := hinv.tokenConsumed
    refine auditStep_debited hinv hclosed hnonneg hnext rfl hsame ?_ ?_ ?_ hjournals htokens ?_ ?_
    · rw [hquota, hpre, zero_add]
      rfl
    · rw [hquota, hconsumed, hmoney.tokenConsumed]
      split
      · rfl
      · replace hnonneg : 0 ≤ amount := hnonneg
        omega
    · exact fundingKnown_afterPreConsume hinv.funding hpre (hclosed.unmoved true)
        hmoney.funding (by rw [hrequest]) rfl hresult
    · simp only [fundingDebit, hwait, hfault, ham, hadmit]
      exact hdebit db' husers
    · simp only [tokenDebit, hnext]
      have hbilled : ((s.session.preConsumeParams amount).applyToken = true ∧
          0 < (s.session.preConsumeParams amount).tokenId ∧
          (s.db.tokens.get? (s.session.preConsumeParams amount).tokenId).isSome = true)
          ↔ TokenBilled s.toSessionState := by
        simp [TokenBilled, preConsumeParams]
      simp only [hbilled] at hcharge
      exact hcharge

/-! ### Reserve -/

/-- A call that leaves the tables, the money of the session and the call in flight alone. -/
theorem auditStep_kept (hinv : SessionInv newId s) (hstep : ¬ step.Admits)
    (happ : appliedId s.toSessionState step = none) (session : BillingSession)
    (hmoney : SameMoney newId s.session session)
    (hnext : sessionStep cal newId s.toSessionState step =
      { s.toSessionState with session := session }) :
    SessionInv newId (auditStep cal newId s step) :=
  auditStep_idle hinv hnext (.refl _) hstep (sameTables _ _) hmoney happ

theorem afterReserve_fields (s : BillingSession) (amount : Int) :
    SameRequest s.relayInfo (s.afterReserve amount).relayInfo ∧
      (s.afterReserve amount).funding = s.funding ∧
      (s.afterReserve amount).preConsumedQuota = s.preConsumedQuota + amount ∧
      (s.afterReserve amount).tokenConsumed = s.tokenConsumed + amount ∧
      (∀ subscriptionId preConsumed, s.funding = .subscription subscriptionId preConsumed →
        (s.afterReserve amount).relayInfo.subscriptionId = subscriptionId) := by
  unfold afterReserve syncRelayInfo
  split
  · rename_i subscriptionId preConsumed hfund
    refine ⟨rfl, rfl, rfl, rfl, fun sid p h => ?_⟩
    exact (FundingSource.subscription.inj (hfund.symm.trans h)).1
  · rename_i hfund
    exact ⟨rfl, rfl, rfl, rfl, fun sid p h => absurd (hfund.symm.trans h) (by simp)⟩

/-- The account of a session's funding source, as its parameters name it. -/
theorem fundingAccount_eq (hknown : FundingKnown newId s) :
    fundingAccount s.session.funding.source s.session.relayInfo.userId
      s.session.relayInfo.subscriptionId = s.session.account := by
  unfold account
  cases hf : s.session.funding with
  | wallet => rfl
  | subscription sid p =>
    rw [(hknown sid p hf).1]
    rfl

theorem auditStep_reserve {targetQuota : Int} (hinv : SessionInv newId s)
    (hsafe : StepSafe newId s (.reserve targetQuota fault)) :
    SessionInv newId (auditStep cal newId s (.reserve targetQuota fault)) := by
  have hidle := @auditStep_kept cal newId s (.reserve targetQuota fault) hinv id rfl s.session
    (.refl newId s.session)
  by_cases hwait : s.inFlight.isSome = true
  · exact hidle (by simp [sessionStep, hwait])
  by_cases hreturns : s.session.reserveReturns targetQuota = true
  · exact hidle (by simp [sessionStep, reserve, hreturns])
  by_cases hfault : fault = true
  · exact hidle (by simp [sessionStep, reserve, hfault])
  have hclosed : ClosedPhase newId s := by
    rcases hsafe with h | h | h | h
    · exact absurd h hwait
    · exact absurd h hfault
    · exact absurd h hreturns
    · exact hinv.closed h
  generalize hdelta : targetQuota - s.session.preConsumedQuota = amount
  set params := s.session.reserveParams amount with hparams
  cases hres : reserveBillingBalances s.db params with
  | error e =>
    exact hidle (by
      simp [sessionStep, reserve, hdelta, ← hparams, hres])
  | ok db' =>
    have hnext : sessionStep cal newId s.toSessionState (.reserve targetQuota fault)
        = { s.toSessionState with db := db', session := s.session.afterReserve amount } := by
      simp [sessionStep, hwait, reserve, hreturns, hfault, hdelta, ← hparams, hres]
    have hnew : ∀ fact, params.personalFact = some fact →
        s.db.receipts.get? fact.operationId = none := fun fact h => by cases h
    have hbalance := reserveBillingBalances_balance hres hnew
    have hrest := reserveBillingBalances_rest hres
    obtain ⟨hpos, ⟨fact, _, hfact, _⟩ | ⟨db₁, _, hfund, _⟩⟩ := reserveBillingBalances_ok hres
    · cases hfact
    replace hpos : 0 < amount := hpos
    obtain ⟨hsame, hfunding, hquota, hconsumed, hsub⟩ := afterReserve_fields s.session amount
    have haccount : (s.session.afterReserve amount).account = s.session.account := by
      unfold account
      rw [hfunding, hsame]
    have hne : s.session.account ≠ .tokenRemain s.session.relayInfo.tokenId := by
      unfold account
      split <;> simp
    have hparamsAccount : fundingAccount params.billingSource params.userId params.subscriptionId
        = s.session.account := fundingAccount_eq hinv.funding
    rw [hparamsAccount] at hbalance
    refine auditStep_debited hinv hclosed (le_of_lt hpos) hnext rfl hsame hquota ?_ ?_ ?_
      (sameTokens_reserveBillingBalances hres) ?_ ?_
    · rw [hquota, hconsumed, hinv.tokenConsumed]
    · -- a subscription that was charged before keeps its record
      intro sid p hf
      have hrecords : db'.preConsumeRecords = s.db.preConsumeRecords := by rw [hrest]
      rw [hfunding] at hf
      rw [hsame.billingId, hrecords, hquota, hsub sid p hf]
      obtain ⟨hsid, hzero | ⟨hp, hle, hlive⟩⟩ := hinv.funding sid p hf
      · have hsrc : params.billingSource = .subscription := by
          show s.session.funding.source = _
          rw [hf]
          rfl
        have hspos : 0 < s.session.relayInfo.subscriptionId := by
          unfold reserveFundingTx at hfund
          rw [hsrc] at hfund
          unfold postConsumeUserSubscriptionDeltaTx at hfund
          by_contra hneg
          simp [hparams, BillingSession.reserveParams, not_lt.mp hneg] at hfund
        omega
      · exact ⟨rfl, .inr ⟨hp, by omega, fun _ => hlive (hclosed.unmoved true)⟩⟩
    · rw [hrest]
    · simp only [fundingDebit, hnext, haccount, hbalance, Pi.add_apply, Pi.single_eq_same]
      have htoken : (if params.applyToken = true then tokenPosting params.tokenId params.amount
          else 0) s.session.account = 0 := by
        split
        · unfold account tokenPosting
          split <;> simp
        · rfl
      rw [htoken]
      show _ - (_ + -amount + 0) = amount
      omega
    · simp only [tokenDebit, ownStep, if_true, hnext, hbalance, Pi.add_apply,
        Pi.single_eq_of_ne hne.symm]
      by_cases hap : s.session.relayInfo.isPlayground = true
      · have hno : ¬ TokenBilled s.toSessionState := fun h => by
          rw [h.1] at hap
          cases hap
        rw [if_neg hno, if_neg (by simp [hparams, BillingSession.reserveParams, hap])]
        simp
      · have happ : params.applyToken = true := by
          simp [hparams, BillingSession.reserveParams, hap]
        have hb : TokenBilled s.toSessionState :=
          ⟨by simpa using hap, reserveBillingBalances_token hres hnew happ⟩
        rw [if_pos hb, if_pos happ]
        simp [tokenPosting, hparams, BillingSession.reserveParams]

/-! ### Settlement and refund -/

/-- A transaction has persisted the session's settlement or refund, perhaps with a task. -/
def Persisted (newId : String) (s : AuditedSession) (refund : Bool) (quotas : List Int)
    (stored : TaskSettlementJournal) (db' : Database) : Prop :=
  ∃ db₀ journal old, db₀ = { s.db with tasks := db₀.tasks } ∧ Ensured db₀ journal old stored db' ∧
    journal.requestId = s.session.journalId newId refund ∧
    OwnFact newId s.session refund journal.toJournalFact ∧
    (refund = false → journal.finalQuota ∈ quotas)

variable {args : SettleArgs} {actualQuota : Int} {task : Task} {log : Option LogPayload}

section Journals

variable {s : AuditedSession} {stored : TaskSettlementJournal} (hknown : FundingKnown newId s)
include hknown

theorem withRequestId_account :
    fundingAccount (s.session.withRequestId newId).funding.source
        (s.session.withRequestId newId).relayInfo.userId
        (s.session.withRequestId newId).relayInfo.subscriptionId
      = (s.session.withRequestId newId).account := by
  have hmoney := (SameMoney.withRequestId newId s.session).1
  rw [hmoney.account, hmoney.funding, hmoney.userId, hmoney.subscriptionId]
  exact fundingAccount_eq hknown

omit hknown in
theorem withRequestId_journalId (refund : Bool) :
    (if refund then "refund:" else "settle:") ++ (s.session.withRequestId newId).relayInfo.requestId
      = s.session.journalId newId refund := by
  rw [(SameMoney.withRequestId newId s.session).2]
  rfl

omit hknown in
/-- A settlement never goes through the record of the pre-consume. -/
theorem settle_not_refundsRecord {j : JournalFact} (hop : j.operation = .settle) :
    ¬ j.refundsRecord :=
  fun hrec => absurd (hop.symm.trans hrec.2.1) (by decide)

theorem settle_persisted (h : ensureTaskSettlementJournalTx s.db
      ((s.session.withRequestId newId).settleJournal args) = .ok (stored, db')) :
    Persisted newId s false [args.actualQuota] stored db' := by
  obtain ⟨old, hensured⟩ := ensureTaskSettlementJournalTx_ok h
  refine ⟨_, _, old, rfl, hensured, ?_⟩
  -- the log and the invoice intent leave the money fields alone
  unfold settleJournal prepareTaskSettlementJournalLog attachOrganizationInvoiceTaskIntent
  cases args.log <;> cases args.intent <;>
    exact ⟨withRequestId_journalId false, (SameMoney.withRequestId newId s.session).1.symm.ownFact
      ⟨rfl, withRequestId_account hknown, rfl, rfl, rfl, fun _ => settle_not_refundsRecord rfl,
        nofun⟩,
      fun _ => List.mem_singleton_self _⟩

/-- The journal of `settleTaskSubmission`, with its task. -/
theorem submission_persisted (h : ensureTaskSettlementJournalWithTask s.db
      ((s.session.withRequestId newId).submissionJournal actualQuota log)
      { task with quota := 0 } = .ok (stored, db')) :
    Persisted newId s false [actualQuota] stored db' := by
  have hfact : OwnFact newId s.session false
      { (s.session.withRequestId newId).submissionJournal actualQuota log with
        entityType := .task, entityId := task.id }.toJournalFact := by
    cases log <;> exact (SameMoney.withRequestId newId s.session).1.symm.ownFact
      ⟨rfl, withRequestId_account hknown, rfl, rfl, rfl, fun _ => settle_not_refundsRecord rfl,
        nofun⟩
  obtain ⟨db₁, bound, hbound, hpersist⟩ := ensureJournalWithEntity_ok h
  obtain ⟨rfl, rfl⟩ := hbound.plain hfact.personalFact
  obtain ⟨old, hensured⟩ := ensureTaskSettlementJournalTx_ok hpersist
  refine ⟨_, _, old, rfl, hensured, ?_, hfact, fun _ => ?_⟩
  · cases log <;> exact withRequestId_journalId false
  · cases log <;> exact List.mem_singleton_self _

/-- The journal of `Refund`: a session that needs a refund has consumed from its token. -/
theorem refund_persisted (hconsumed : s.session.tokenConsumed = s.session.preConsumedQuota)
    (hneeds : s.session.needsRefundLocked = true)
    (h : ensureTaskSettlementJournalTx s.db (s.session.withRequestId newId).refundJournal
      = .ok (stored, db')) : Persisted newId s true [] stored db' := by
  obtain ⟨old, hensured⟩ := ensureTaskSettlementJournalTx_ok h
  refine ⟨_, _, old, rfl, hensured, ?_⟩
  obtain ⟨hmoney, hid⟩ := SameMoney.withRequestId newId s.session
  have haccount := withRequestId_account hknown
  have hpos : 0 < s.session.tokenConsumed := by
    unfold needsRefundLocked at hneeds
    simp only [Bool.and_eq_true, Bool.or_eq_true, decide_eq_true_eq] at hneeds
    rcases hneeds.2 with hpos | hsub
    · exact hpos
    cases hf : s.session.funding with
    | wallet => simp [hf] at hsub
    | subscription sid p =>
      have hp : 0 < p := by simpa [hf] using hsub
      rcases (hknown sid p hf).2 with ⟨h0, _⟩ | ⟨_, hle, _⟩
      · omega
      · omega
  have happly : (!(s.session.withRequestId newId).relayInfo.isPlayground &&
      decide (0 < (s.session.withRequestId newId).tokenConsumed))
        = !(s.session.withRequestId newId).relayInfo.isPlayground := by
    rw [hmoney.tokenConsumed]
    simp [hpos]
  have hname : (s.session.withRequestId newId).relayInfo.requestId
      = (s.session.withRequestId newId).billingId newId := by
    rw [hid, hmoney.id]
  unfold refundJournal prepareTaskSettlementJournalLog
  cases hf : (s.session.withRequestId newId).funding with
  | wallet =>
    rw [hf] at haccount
    exact ⟨withRequestId_journalId true, hmoney.symm.ownFact ⟨rfl, haccount, rfl, happly,
      (zero_sub _).symm, nofun, fun _ => ⟨rfl, nofun⟩⟩, nofun⟩
  | subscription sid p =>
    rw [hf] at haccount
    exact ⟨withRequestId_journalId true, hmoney.symm.ownFact ⟨rfl, haccount, rfl, happly,
      (zero_sub _).symm, nofun, fun _ => ⟨rfl, fun _ => hname⟩⟩, nofun⟩

end Journals

variable {refund : Bool}

section

variable (hinv : SessionInv newId s)
include hinv

theorem auditStep_opens
    {stored : TaskSettlementJournal} (session : BillingSession)
    (hnext : sessionStep cal newId s.toSessionState step
      = { db := db', session := session
          inFlight := some { stored := stored, stage := .apply, refunding := refund } })
    (hstep : ¬ step.Admits)
    (happ : appliedId s.toSessionState step = none) (hsafe : OpensSafely newId s refund)
    (hpersisted : Persisted newId s refund (settledQuota step) stored db')
    (hsession : SameMoney newId s.session session) :
    SessionInv newId (auditStep cal newId s step) := by
  obtain ⟨db₀, journal, old, hbase, hens, hid, hfact, hactual⟩ := hpersisted
  have huntouched : Untouched s.db (sessionStep cal newId s.toSessionState step).db := by
    rw [hnext]
    have hrest := hens.rest
    exact ⟨by rw [hrest, hbase], by rw [hrest, hbase], by rw [hrest, hbase], by rw [hrest, hbase]⟩
  obtain ⟨hfund, htoken⟩ := debits_of_untouched hstep huntouched
  have hstored : stored.requestId = journal.requestId := by
    have hrow := hens.rows journal.requestId
    rw [if_pos rfl] at hrow
    exact Table.key_of_get? hrow
  have hpersisted : Ensured db₀ journal old stored (auditStep cal newId s step).db := by
    show Ensured db₀ journal old stored (sessionStep cal newId s.toSessionState step).db
    rw [hnext]
    exact hens
  refine sessionInv_opened hinv hbase hpersisted hid hsafe hfact ?_ ?_ ?_ ?_ ?_ ?_ ?_
  · intro hsettle
    exact List.mem_append_left _ (hactual hsettle)
  · show SameMoney newId s.session (sessionStep cal newId s.toSessionState step).session
    rw [hnext]
    exact hsession
  · intro call hcall
    replace hcall : (sessionStep cal newId s.toSessionState step).inFlight = some call := hcall
    rw [hnext] at hcall
    cases hcall
    exact hstored
  · simp [auditStep, hfund]
  · simp [auditStep, htoken]
  · intro refund'
    cases refund' <;> simp [AuditedSession.moved, auditStep, happ]
  · simp [auditStep, hnext]

/-- The calls that end in a journal: one waits, returns at once, fails, or persists its journal. -/
theorem auditStep_persists {returns : Bool} {early late : BillingSession}
    {result : Except BillingError (TaskSettlementJournal × Database)}
    (hnext : sessionStep cal newId s.toSessionState step
      = if s.inFlight.isSome then s.toSessionState
        else if returns then { s.toSessionState with session := early }
        else if fault then { s.toSessionState with session := s.session.withRequestId newId }
        else match result with
          | .error _ => { s.toSessionState with session := s.session.withRequestId newId }
          | .ok (stored, db) =>
              { db, session := late
                inFlight := some { stored, stage := .apply, refunding := refund } })
    (hstep : ¬ step.Admits)
    (happ : appliedId s.toSessionState step = none) (hearly : SameMoney newId s.session early)
    (hlate : SameMoney newId s.session late)
    (hsafe : s.inFlight.isSome ∨ fault = true ∨ returns = true ∨ OpensSafely newId s refund)
    (hok : returns = false → ∀ stored db', result = .ok (stored, db') →
      Persisted newId s refund (settledQuota step) stored db') :
    SessionInv newId (auditStep cal newId s step) := by
  have hidle := @auditStep_kept cal newId s step hinv hstep happ
  have hmoney := (SameMoney.withRequestId newId s.session).1
  by_cases hwait : s.inFlight.isSome = true
  · exact hidle s.session (.refl newId s.session) (by simp [hnext, hwait])
  by_cases hreturns : returns = true
  · exact hidle early hearly (by simp [hnext, hwait, hreturns])
  by_cases hfault : fault = true
  · exact hidle _ hmoney (by simp [hnext, hwait, hreturns, hfault])
  cases hresult : result with
  | error e => exact hidle _ hmoney (by simp [hnext, hwait, hreturns, hresult])
  | ok out =>
    refine auditStep_opens hinv late ?_ hstep happ ?_ (hok (by simpa using hreturns) _ _ hresult)
      hlate
    · simp [hnext, hwait, hreturns, hfault, hresult]
    rcases hsafe with h | h | h | h
    · exact absurd h hwait
    · exact absurd h hfault
    · exact absurd h hreturns
    · exact h

theorem auditStep_settle (hsafe : StepSafe newId s (.settle args fault)) :
    SessionInv newId (auditStep cal newId s (.settle args fault)) :=
  auditStep_persists hinv rfl id rfl ⟨rfl, rfl, rfl, rfl, rfl, rfl, rfl, rfl⟩
    (SameMoney.withRequestId newId s.session).1 hsafe
    fun _ _ _ hens => settle_persisted hinv.funding hens

theorem auditStep_refund (hsafe : StepSafe newId s (.refund fault)) :
    SessionInv newId (auditStep cal newId s (.refund fault)) := by
  have hmoney := (SameMoney.withRequestId newId s.session).1
  refine auditStep_persists hinv rfl id rfl (.refl newId s.session)
    ⟨hmoney.id, hmoney.userId, hmoney.tokenId, hmoney.isPlayground, hmoney.subscriptionId,
      hmoney.funding, hmoney.preConsumedQuota, hmoney.tokenConsumed⟩ ?_ ?_
  · simpa [StepSafe] using hsafe
  · intro hneeds _ _ hens
    exact refund_persisted hinv.funding hinv.tokenConsumed (by simpa using hneeds) hens

theorem auditStep_submission
    (hsafe : StepSafe newId s (.settleTaskSubmission actualQuota task log fault)) :
    SessionInv newId (auditStep cal newId s (.settleTaskSubmission actualQuota task log fault)) :=
  auditStep_persists hinv rfl id rfl (.refl newId s.session)
    (SameMoney.withRequestId newId s.session).1 hsafe
    fun _ _ _ hens => submission_persisted hinv.funding hens

end

/-! ### The main result -/

/-- **A safe step keeps the invariant.** -/
theorem auditStep_inv (s : AuditedSession) (step : SessionStep) (hinv : SessionInv newId s)
    (hsafe : StepSafe newId s step) : SessionInv newId (auditStep cal newId s step) := by
  cases step with
  | preConsume quota now rich fault => exact auditStep_preConsume hinv hsafe
  | reserve targetQuota fault => exact auditStep_reserve hinv hsafe
  | settle args fault => exact auditStep_settle hinv hsafe
  | settleTaskSubmission actualQuota task log fault => exact auditStep_submission hinv hsafe
  | refund fault => exact auditStep_refund hinv hsafe
  | advance fault => exact auditStep_advance hinv hsafe
  | sweep step => exact auditStep_sweep hinv hsafe

/-- **Sessions settle or refund, once.** Along every run of calls and sweeps on a fresh session
    whose steps are safe, settlement and refund never both move money, and the net debits of
    the funding source and of the token are what the session's outcome says. -/
theorem session_exact (cal : Calendar) (newId : String) (db : Database) (session : BillingSession)
    (hfresh : FreshSession newId db session) (steps : List SessionStep)
    (hsafe : Along (auditStep cal newId) (StepSafe newId) { db := db, session := session } steps) :
    SessionExact newId (run (auditStep cal newId) { db := db, session := session } steps) :=
  (invariant_along (fun s step => auditStep_inv s step) _ steps
    (sessionInv_fresh hfresh) hsafe).exact

/-! ### A settlement that fails midway -/

/-- A request of a user with 1000 in the wallet and on the token. -/
def auditSession : BillingSession :=
  { relayInfo := { requestId := "r", userId := 1, tokenId := 1 }, funding := .wallet }

def auditDatabase : Database :=
  { users := .ofList _ [{ id := 1, quota := 1000 }],
    tokens := .ofList _ [{ id := 1, remainQuota := 1000 }] }

theorem auditSession_fresh : FreshSession "n" auditDatabase auditSession where
  preConsumedQuota := rfl
  tokenConsumed := rfl
  funding := .inl rfl
  subscriptionId := rfl
  journals refund := by cases refund <;> rfl
  records := rfl
  unnamed j hj := by cases hj

/-- A request that is pre-consumed and settled. -/
theorem auditSession_exact :
    SessionExact "n" (run (auditStep fixedCalendar "n")
      { db := auditDatabase, session := auditSession }
      [.preConsume 100 0 false false, .settle { actualQuota := 80 } false, .advance false]) := by
  refine session_exact fixedCalendar "n" auditDatabase auditSession auditSession_fresh _
    ⟨.inr (.inr ⟨rfl, rfl⟩), .inr (.inr (.inr (.inl rfl))), ?_, trivial⟩
  -- the journal is funded by the wallet, so there is no usage to cover
  intro refund row happ hrow _ hsub
  cases refund
  · cases hrow
    cases hsub
  · cases hrow

/-- The apply transaction of the settlement fails, the session refunds, and a sweep then applies
    the settlement as well. -/
def failedSettlement : List SessionStep :=
  [.preConsume 100 0 false false, .settle { actualQuota := 80 } false, .advance true,
    .refund false, .advance false, .sweep (.apply "settle:r")]

/-- **Settled and refunded.** The two journals of one session both move money: the refund gives
    back the 100 pre-consumed, and the settlement another 20. -/
theorem session_settled_and_refunded :
    FreshSession "n" auditDatabase auditSession ∧
      (run (auditStep fixedCalendar "n") { db := auditDatabase, session := auditSession }
        failedSettlement).fundingNet = -20 ∧
      ¬ SessionExact "n" (run (auditStep fixedCalendar "n")
        { db := auditDatabase, session := auditSession } failedSettlement) := by
  refine ⟨auditSession_fresh, by decide, fun hexact => hexact.exclusive ⟨?_, ?_⟩⟩
  · decide
  · decide

end TokenGateway.Billing
