import TokenGateway.Billing.AuditSafe

namespace TokenGateway.Billing

open Base Reseller

/-!
# Steps between the calls of a session

Sweeps, and the transactions of the call in flight, are transactions of `Billing.AuditSafe`.

* `auditStep_quiet`, `auditStep_idle` — steps that move none of the session's money;
* `auditStep_applies` — the apply transaction of one of its journals;
* `auditStep_sweep`, `auditStep_advance` — these steps keep the invariant.
-/

variable {cal : Calendar} {newId : String}

/-! ### Debits of a step -/

variable {step : SessionStep} {db db' : Database}

theorem untouched_account (h : Untouched db db') (s : BillingSession) :
    balance db' s.account = balance db s.account := by
  unfold BillingSession.account
  split
  · show db'.users.column _ _ = _
    rw [h.users]
    rfl
  · show db'.subscriptions.column _ _ = _
    rw [h.subscriptions]
    rfl

theorem untouched_tokenRemain (h : Untouched db db') (id : Int) :
    balance db' (.tokenRemain id) = balance db (.tokenRemain id) := by
  show db'.tokens.column _ _ = _
  rw [h.tokens]
  rfl

/-- A step that pre-consumes; it counts what the admission debits. -/
def SessionStep.Admits : SessionStep → Prop
  | .preConsume .. => True
  | _ => False

/-- A step that leaves the balances alone debits nothing. -/
theorem debits_of_untouched {s : SessionState} (hstep : ¬ step.Admits)
    (h : Untouched s.db (sessionStep cal newId s step).db) :
    fundingDebit cal newId s step = 0 ∧ tokenDebit cal newId s step = 0 := by
  have hfund : ownStep newId s.session step = true →
      balance s.db (sessionStep cal newId s step).session.account
        - balance (sessionStep cal newId s step).db (sessionStep cal newId s step).session.account =
          0 := by
    intro _
    rw [untouched_account h, sub_self]
  constructor
  · unfold fundingDebit
    split
    · exact absurd trivial hstep
    · split
      · exact hfund (by assumption)
      · rfl
  · unfold tokenDebit
    split
    · dsimp only
      rw [untouched_tokenRemain h, sub_self]
    · rfl

/-- Whatever a sweep does to other journals is not a debit of the session. -/
theorem debits_of_foreign {s : SessionState} {step : SweepStep}
    (h : ownStep newId s.session (.sweep step) = false) :
    fundingDebit cal newId s (.sweep step) = 0 ∧ tokenDebit cal newId s (.sweep step) = 0 := by
  simp [fundingDebit, tokenDebit, h]

/-! ### Quiet steps -/

variable {s : AuditedSession} {row : TaskSettlementJournal}

theorem SessionInv.opened_of_inFlight (h : SessionInv newId s) {call : InFlight}
    (hcall : s.inFlight = some call) : s.opened = true := by
  rcases h.phase with hclosed | ⟨_, _, hopen⟩
  · rw [hclosed.inFlight] at hcall
    cases hcall
  · exact hopen.opened

section

variable {next : SessionState} (hinv : SessionInv newId s)
  (hnext : sessionStep cal newId s.toSessionState step = next)
  (hflight : Continues s.toSessionState next)
include hinv hnext hflight

theorem auditStep_opened : (auditStep cal newId s step).opened = s.opened := by
  simp only [auditStep, hnext]
  cases hcall : next.inFlight with
  | none => simp
  | some call =>
    obtain ⟨call₀, hcall₀, _⟩ := hflight call hcall
    simp [hinv.opened_of_inFlight hcall₀]

theorem auditStep_quiet (hdb : QuietTables (s.session.billingId newId) s.db next.db)
    (hsession : SameMoney newId s.session next.session)
    (hdebits : fundingDebit cal newId s.toSessionState step = 0 ∧
      tokenDebit cal newId s.toSessionState step = 0) (hmoves : ∀ refund,
      appliedId s.toSessionState step = some (s.session.journalId newId refund) →
      appliesNow s.db (s.session.journalId newId refund) = false) :
    SessionInv newId (auditStep cal newId s step) := by
  have hnone : ∀ refund,
      (decide (appliedId s.toSessionState step = some (s.session.journalId newId refund))
        && appliesNow s.db (s.session.journalId newId refund)) = false := by
    intro refund
    by_cases happ : appliedId s.toSessionState step = some (s.session.journalId newId refund)
    · rw [hmoves refund happ, Bool.and_false]
    · simp [happ]
  have hopened := auditStep_opened hinv hnext hflight
  subst hnext
  refine sessionInv_quiet hinv hdb hsession hflight ⟨?_, ?_, ?_, ?_, hopened⟩
  · simp [auditStep, hdebits.1]
  · simp [auditStep, hdebits.2]
  · intro refund
    cases refund <;> simp [AuditedSession.moved, auditStep, hnone]
  · simp [auditStep]

/-- A step of the session itself that moves nothing and applies nothing. -/
theorem auditStep_idle (hstep : ¬ step.Admits)
    (htables : QuietTables (s.session.billingId newId) s.db next.db ∧ Untouched s.db next.db)
    (hsession : SameMoney newId s.session next.session)
    (happ : appliedId s.toSessionState step = none) :
    SessionInv newId (auditStep cal newId s step) := by
  refine auditStep_quiet hinv hnext hflight htables.1 hsession
    (debits_of_untouched hstep (hnext ▸ htables.2)) (fun _ hsome => ?_)
  rw [happ] at hsome
  cases hsome

end

variable {recordId : String}

/-- Applying a row changes the journal table at that row alone, and keeps its fact. -/
theorem quietTables_apply {k : String} {now : Bool}
    (hrow : db.journals.get? k = some row) (hout : ApplyOutcome db row now db')
    (hrecord : db'.preConsumeRecords.get? recordId = db.preConsumeRecords.get? recordId) :
    QuietTables recordId db db' := by
  have hid : row.requestId = k := Table.key_of_get? hrow
  refine ⟨fun k' row' hrow' => ?_, hrecord, hout.sameTokens⟩
  rw [hout.rows (by rw [hid, hrow])] at hrow'
  split at hrow'
  · rename_i hk'
    cases hrow'
    exact ⟨row, by rw [hk', hid, hrow], rfl, fun _ => rfl⟩
  · exact ⟨row', hrow', rfl, id⟩

section

variable (recordId : String) (db : Database)

theorem sameTables : QuietTables recordId db db ∧ Untouched db db :=
  ⟨.refl recordId db, ⟨rfl, rfl, rfl, rfl⟩⟩

theorem quietTables_markLogDone (k : String) :
    QuietTables recordId db (markTaskSettlementLogDone db k) ∧
      Untouched db (markTaskSettlementLogDone db k) := by
  unfold markTaskSettlementLogDone
  split
  · rename_i row hrow
    have hid : row.requestId = k := Table.key_of_get? hrow
    split
    · refine ⟨⟨fun k' row' hrow' => ?_, rfl, fun _ => rfl⟩, ⟨rfl, rfl, rfl, rfl⟩⟩
      simp only [writeJournal, Table.get?_set] at hrow'
      split at hrow'
      · rename_i hk'
        cases hrow'
        exact ⟨row, by rw [← hk', hid, hrow], rfl, id⟩
      · exact ⟨row', hrow', rfl, id⟩
    · exact sameTables recordId db
  · exact sameTables recordId db

theorem quietTables_delete (k : String) :
    QuietTables recordId db (deleteTaskSettlementJournal db k) ∧
      Untouched db (deleteTaskSettlementJournal db k) := by
  unfold deleteTaskSettlementJournal
  split
  · split
    · refine ⟨⟨fun k' row' hrow' => ?_, rfl, fun _ => rfl⟩, ⟨rfl, rfl, rfl, rfl⟩⟩
      simp only [Table.get?_erase] at hrow'
      split_ifs at hrow'
      exact ⟨row', hrow', rfl, id⟩
    · exact sameTables recordId db
  · exact sameTables recordId db

end

/-! ### Applying one of the session's journals -/

variable {refund : Bool}

/-- The row of a session's journal shows which phase the session is in. -/
theorem SessionInv.open_of_row (h : SessionInv newId s)
    (hrow : s.db.journals.get? (s.session.journalId newId refund) = some row) :
    OpenPhase newId s refund row.toJournalFact := by
  rcases h.phase with hclosed | ⟨refund', j, hopen⟩
  · rw [hclosed.rows] at hrow
    cases hrow
  have hsame : refund' = refund := by
    by_contra hne
    rw [show refund = !refund' from Bool.eq_not.mpr (Ne.symm hne), hopen.other] at hrow
    cases hrow
  subst hsame
  rw [(hopen.row row hrow).1]
  exact hopen

/-- The apply transaction of one of the session's journals, by the session or by a sweep. -/
theorem auditStep_applies {next : SessionState} (hinv : SessionInv newId s)
    (hnext : sessionStep cal newId s.toSessionState step = next)
    (hflight : Continues s.toSessionState next) (hstep : ¬ step.Admits)
    (happ : appliedId s.toSessionState step = some (s.session.journalId newId refund))
    (hown : ownStep newId s.session step = true)
    (hdb : next.db = applyStep s.db (s.session.journalId newId refund))
    (hsession : SameMoney newId s.session next.session)
    (hsame : appliesNow s.db (s.session.journalId newId refund) = true → next.session = s.session)
    (hcovers : ∀ row, s.db.journals.get? (s.session.journalId newId refund) = some row →
      row.applied = false → UsageCovers s.db row.toJournalFact) :
    SessionInv newId (auditStep cal newId s step) := by
  have hquiet : QuietTables (s.session.billingId newId) s.db next.db → Untouched s.db next.db →
      appliesNow s.db (s.session.journalId newId refund) = false →
      SessionInv newId (auditStep cal newId s step) := by
    intro htables huntouched hnow
    refine auditStep_quiet hinv hnext hflight htables hsession
      (debits_of_untouched hstep (hnext ▸ huntouched)) (fun refund' happ' => ?_)
    rw [← Option.some.inj (happ.symm.trans happ'), hnow]
  unfold applyStep at hdb
  cases happly : applyTaskSettlementJournal s.db (s.session.journalId newId refund) with
  | error e =>
    rw [happly] at hdb
    refine hquiet (hdb ▸ .refl _ s.db) (hdb ▸ ⟨rfl, rfl, rfl, rfl⟩) ?_
    simp [appliesNow, happly]
  | ok out =>
    obtain ⟨stored, now, db'⟩ := out
    rw [happly] at hdb
    have hnow : appliesNow s.db (s.session.journalId newId refund) = now := by
      simp [appliesNow, happly]
    obtain ⟨row, hrow, _, hout⟩ := applyTaskSettlementJournal_ok happly
    cases now with
    | false =>
      have huntouched := hout.untouched rfl
      refine hquiet (hdb ▸ quietTables_apply hrow hout ?_) (hdb ▸ huntouched) hnow
      rw [huntouched.records]
    | true =>
      have hid : s.session.journalId newId refund ≠ s.session.journalId newId (!refund) :=
        journalId_ne newId s.session refund
      have hopened := auditStep_opened hinv hnext hflight
      subst hnext
      have hkept := hsame hnow
      have hmove : ApplyOutcome s.db row true (auditStep cal newId s step).db := hdb ▸ hout
      refine sessionInv_moved hinv (hinv.open_of_row hrow) hrow (hcovers row hrow)
        hmove hkept hflight ?_ ?_ ?_ ?_ ?_ hopened
      · show s.fundingNet + fundingDebit cal newId s.toSessionState step = _
        unfold fundingDebit
        split
        · exact absurd trivial hstep
        rw [if_pos hown]
        dsimp only
        rw [hkept]
        rfl
      · show s.tokenNet + tokenDebit cal newId s.toSessionState step = _
        unfold tokenDebit
        rw [if_pos hown]
        rfl
      · cases refund <;> simp [AuditedSession.moved, auditStep, happ, hnow]
      · cases refund
        · simp only [AuditedSession.moved, auditStep, happ, Bool.not_false] at hid ⊢
          simp [hid]
        · simp only [AuditedSession.moved, auditStep, happ, Bool.not_true] at hid ⊢
          simp [hid]
      · simp [auditStep]

/-! ### Sweeps and the call in flight -/

theorem auditStep_sweep {step : SweepStep} (hinv : SessionInv newId s)
    (hsafe : StepSafe newId s (.sweep step)) :
    SessionInv newId (auditStep cal newId s (.sweep step)) := by
  have hflight := Continues.refl s.toSessionState
  cases step with
  | apply k =>
    by_cases hown : ∃ refund, k = s.session.journalId newId refund
    · obtain ⟨refund, rfl⟩ := hown
      refine auditStep_applies hinv rfl hflight id rfl ?_ rfl (.refl newId s.session)
        (fun _ => rfl) (fun row hrow hun => hsafe refund row rfl hrow hun)
      cases refund <;> simp [ownStep]
    · have hne : ∀ refund, k ≠ s.session.journalId newId refund :=
        fun refund heq => hown ⟨refund, heq⟩
      have hforeign : ownStep newId s.session (.sweep (.apply k)) = false := by
        simp [ownStep, hne]
      refine auditStep_quiet hinv rfl hflight ?_ (.refl newId s.session)
        (debits_of_foreign hforeign)
        (fun refund happ => absurd (Option.some.inj happ) (hne refund))
      show QuietTables _ s.db (applyStep s.db k)
      unfold applyStep
      cases happly : applyTaskSettlementJournal s.db k with
      | error e => exact .refl _ s.db
      | ok out =>
        obtain ⟨row, hrow, _, hout⟩ := applyTaskSettlementJournal_ok happly
        exact quietTables_apply hrow hout (hout.records (.inr (hinv.unnamed k row hrow hne)))
  | logDone k =>
    exact auditStep_quiet hinv rfl hflight (quietTables_markLogDone _ s.db k).1
      (.refl newId s.session)
      (debits_of_foreign rfl) (fun _ happ => absurd happ (by simp [appliedId]))
  | delete k =>
    exact auditStep_quiet hinv rfl hflight (quietTables_delete _ s.db k).1 (.refl newId s.session)
      (debits_of_foreign rfl) (fun _ happ => absurd happ (by simp [appliedId]))

theorem endCall_sameMoney (newId : String) (s : SessionState) (refunding success : Bool) :
    SameMoney newId s.session (endCall s refunding success).session := by
  cases refunding <;> cases success <;> exact ⟨rfl, rfl, rfl, rfl, rfl, rfl, rfl, rfl⟩

variable {fault : Bool}

theorem completeLog_quiet {j : TaskSettlementJournal}
    (h : completeTaskSettlementJournalLog db j fault = .ok db') :
    QuietTables recordId db db' ∧ Untouched db db' := by
  unfold completeTaskSettlementJournalLog at h
  split at h
  · cases h
    exact sameTables recordId db
  split at h
  · cases h
  split at h
  · cases h
  cases h
  exact quietTables_markLogDone recordId db j.requestId

theorem auditStep_advance (hinv : SessionInv newId s) (hsafe : StepSafe newId s (.advance fault)) :
    SessionInv newId (auditStep cal newId s (.advance fault)) := by
  cases hcall : s.inFlight with
  | none =>
    have hnext : sessionStep cal newId s.toSessionState (.advance fault) = s.toSessionState := by
      simp [sessionStep, hcall]
    refine auditStep_idle hinv hnext (.refl _) id (sameTables _ _) (.refl newId s.session) ?_
    cases fault <;> simp [appliedId, hcall]
  | some call =>
    have hadvance : sessionStep cal newId s.toSessionState (.advance fault)
        = advance s.toSessionState call fault := by
      simp [sessionStep, hcall]
    -- the call ends, or goes on to its next stage
    have hends : ∀ (db : Database) (success : Bool), advance s.toSessionState call fault
          = endCall { s.toSessionState with db } call.refunding success →
        QuietTables (s.session.billingId newId) s.db db ∧ Untouched s.db db →
        appliedId s.toSessionState (.advance fault) = none →
        SessionInv newId (auditStep cal newId s (.advance fault)) :=
      fun _ _ hnext htables => auditStep_idle hinv (hadvance.trans hnext) (fun _ h => by cases h) id
        htables (endCall_sameMoney newId _ _ _)
    have hcontinues : ∀ (db : Database) (stored : TaskSettlementJournal) (stage : Stage),
        stored.requestId = call.stored.requestId → Continues s.toSessionState
          { s.toSessionState with db, inFlight := some { call with stored, stage } } := by
      rintro db stored stage hid call' ⟨⟩
      exact ⟨call, hcall, hid⟩
    have hnotApply : call.stage ≠ .apply → appliedId s.toSessionState (.advance fault) = none := by
      intro hne
      cases fault <;> simp [appliedId, hcall, hne]
    cases hstage : call.stage with
    | apply =>
      by_cases hfault : fault = true
      · exact hends s.db false (by simp [advance, hstage, hfault]) (sameTables _ _)
          (by simp [appliedId, hfault])
      have hfault : fault = false := by simpa using hfault
      subst hfault
      by_cases happlied : call.stored.applied = true
      · exact auditStep_idle hinv (hadvance.trans (by simp [advance, hstage, happlied]))
          (hcontinues s.db call.stored .log rfl) id (sameTables _ _) (.refl newId s.session)
          (by simp [appliedId, hcall, hstage, happlied])
      -- the transaction that applies the journal
      obtain ⟨refund, j, hopen⟩ : ∃ refund j, OpenPhase newId s refund j := by
        rcases hinv.phase with hclosed | hopen
        · rw [hclosed.inFlight] at hcall
          cases hcall
        · exact hopen
      have hid := hopen.inFlight call hcall
      have happ : appliedId s.toSessionState (.advance false) =
        some (s.session.journalId newId refund) := by
        simp [appliedId, hcall, hstage, happlied, hid]
      simp only [advance, hstage, happlied, hid, Bool.false_eq_true, if_false] at hadvance
      refine auditStep_applies hinv hadvance ?_ id happ rfl ?_ ?_ ?_
        (fun row hrow hun => hsafe refund row happ hrow hun)
      · split
        · exact fun _ h => by cases h
        · rename_i stored now db' hok
          exact hcontinues db' stored .log ((applyTaskSettlementJournal_requestId hok).trans
            hid.symm)
      · rw [applyStep]
        cases applyTaskSettlementJournal s.db (s.session.journalId newId refund) <;> rfl
      · split
        · exact endCall_sameMoney newId _ _ _
        · exact .refl newId s.session
      · intro hnow
        unfold appliesNow at hnow
        split
        · rename_i e he
          rw [he] at hnow
          cases hnow
        · rfl
    | log =>
      have hnone := hnotApply (by rw [hstage]; decide)
      cases hlog : completeTaskSettlementJournalLog s.db call.stored fault with
      | error e => exact hends s.db false (by simp [advance, hstage, hlog]) (sameTables _ _) hnone
      | ok db' =>
        exact auditStep_idle hinv (hadvance.trans (by simp [advance, hstage, hlog]))
          (hcontinues db' call.stored .delete rfl) id (completeLog_quiet hlog)
          (.refl newId s.session) hnone
    | delete =>
      refine hends _ _ (by simp only [advance, hstage]; rfl) ?_ (hnotApply (by rw [hstage]; decide))
      split
      · exact sameTables _ _
      · exact quietTables_delete _ s.db call.stored.requestId

end TokenGateway.Billing
