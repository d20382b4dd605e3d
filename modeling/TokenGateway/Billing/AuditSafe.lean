import TokenGateway.Billing.Audit

namespace TokenGateway.Billing

open Base Reseller

/-!
# Sessions settle or refund, once

The invariant of an audited session, and the proof that it holds along every run whose steps
are safe.

* `SessionInv` — no journal yet (`ClosedPhase`), or one of them (`OpenPhase`);
* `sessionInv_quiet`, `sessionInv_moved`, `sessionInv_opened` — what each kind of
  transaction does to it.
-/

/-! ### The invariant -/

variable {newId : String} {s : AuditedSession} {db : Database}

/-- The journal of the session's refund or settlement. -/
structure OwnFact (newId : String) (s : BillingSession) (refund : Bool) (j : JournalFact) :
    Prop where
  personalFact : j.personalFact = none
  account : j.account = s.account
  tokenId : j.tokenId = s.relayInfo.tokenId
  applyToken : j.applyToken = !s.relayInfo.isPlayground
  delta : j.delta = j.finalQuota - s.preConsumedQuota
  settles : refund = false → ¬ j.refundsRecord
  refunds : refund = true → j.finalQuota = 0 ∧
    (j.billingSource = .subscription → j.subscriptionPreConsumeRequestId = s.billingId newId)

/-- What is known of a subscription that funds the session until the refund takes it: nothing is
    consumed from it yet, or the record of its pre-consume is live. -/
def FundingKnown (newId : String) (s : AuditedSession) : Prop :=
  ∀ subscriptionId preConsumed, s.session.funding = .subscription subscriptionId preConsumed →
    s.session.relayInfo.subscriptionId = subscriptionId ∧
      ((preConsumed = 0 ∧ subscriptionId = 0 ∧ s.session.preConsumedQuota = 0 ∧
          (s.refundMoved = false → s.db.preConsumeRecords.get? (s.session.billingId newId) =
            none)) ∨
        (0 < preConsumed ∧ preConsumed ≤ s.session.preConsumedQuota ∧
          (s.refundMoved = false → ∃ record,
            s.db.preConsumeRecords.get? (s.session.billingId newId) = some record ∧
              record.preConsumed = preConsumed ∧
              record.userSubscriptionId = subscriptionId ∧ record.status ≠ .refunded)))

/-- No journal was persisted. -/
structure ClosedPhase (newId : String) (s : AuditedSession) : Prop where
  opened : s.opened = false
  inFlight : s.inFlight = none
  rows : ∀ refund, s.db.journals.get? (s.session.journalId newId refund) = none
  unmoved : ∀ refund, s.moved refund = false
  net : s.fundingNet = s.session.preConsumedQuota

/-- One journal was persisted, with the fact `j`; it may be stored still. -/
structure OpenPhase (newId : String) (s : AuditedSession) (refund : Bool) (j : JournalFact) :
    Prop where
  opened : s.opened = true
  inFlight : ∀ call, s.inFlight = some call →
    call.stored.requestId = s.session.journalId newId refund
  row : ∀ row, s.db.journals.get? (s.session.journalId newId refund) = some row →
    row.toJournalFact = j ∧ (s.moved refund = true → row.applied = true)
  other : s.db.journals.get? (s.session.journalId newId (!refund)) = none
  unmoved : s.moved (!refund) = false
  fact : OwnFact newId s.session refund j
  actual : refund = false → j.finalQuota ∈ s.actuals
  net : s.fundingNet = if s.moved refund then j.finalQuota else s.session.preConsumedQuota

/-- The invariant of an audited session. -/
structure SessionInv (newId : String) (s : AuditedSession) : Prop where
  unnamed : ∀ k row, s.db.journals.get? k = some row →
    (∀ refund, k ≠ s.session.journalId newId refund) →
    row.subscriptionPreConsumeRequestId ≠ s.session.billingId newId
  nonneg : 0 ≤ s.session.preConsumedQuota
  tokenConsumed : s.session.tokenConsumed = s.session.preConsumedQuota
  funding : FundingKnown newId s
  token : s.tokenNet = if TokenBilled s.toSessionState then s.fundingNet else 0
  phase : ClosedPhase newId s ∨ ∃ refund j, OpenPhase newId s refund j

theorem journalId_ne (newId : String) (s : BillingSession) (refund : Bool) :
    s.journalId newId refund ≠ s.journalId newId (!refund) := by
  have hne : ∀ id : String, "settle:" ++ id ≠ "refund:" ++ id := by
    intro id heq
    have hhead := congrArg (fun text => text.toList.head?) heq
    simp at hhead
  cases refund
  · exact hne _
  · exact (hne _).symm

/-- **The invariant gives the property.** -/
theorem SessionInv.exact (h : SessionInv newId s) : SessionExact newId s := by
  refine ⟨?_, fun _ => ?_, h.token⟩
  · rintro ⟨hsettle, hrefund⟩
    rcases h.phase with hclosed | ⟨refund, j, hopen⟩
    · cases (hclosed.unmoved true).symm.trans hrefund
    have hother := hopen.unmoved
    cases refund
    · cases hother.symm.trans hrefund
    · cases hother.symm.trans hsettle
  · rcases h.phase with hclosed | ⟨refund, j, hopen⟩
    · exact .inl ⟨hclosed.unmoved false, hclosed.unmoved true, hclosed.net⟩
    have hnet := hopen.net
    have hother := hopen.unmoved
    cases hmoved : s.moved refund with
    | false =>
      rw [hmoved] at hnet
      cases refund
      · exact .inl ⟨hmoved, hother, hnet⟩
      · exact .inl ⟨hother, hmoved, hnet⟩
    | true =>
      rw [hmoved] at hnet
      cases refund
      · exact .inr (.inl ⟨hmoved, hnet ▸ hopen.actual rfl⟩)
      · exact .inr (.inr ⟨hmoved, hnet.trans (hopen.fact.refunds rfl).1⟩)

theorem sessionInv_fresh {session : BillingSession} (h : FreshSession newId db session) :
    SessionInv newId { db := db, session := session } where
  unnamed k row hrow _ := h.unnamed row (Table.mem_of_get? hrow)
  nonneg := le_of_eq h.preConsumedQuota.symm
  tokenConsumed := h.tokenConsumed.trans h.preConsumedQuota.symm
  funding := by
    intro subscriptionId preConsumed hfund
    rcases h.funding with hwallet | hsub
    · exact absurd (hwallet.symm.trans hfund) (by simp)
    · obtain ⟨rfl, rfl⟩ := FundingSource.subscription.inj (hsub.symm.trans hfund)
      exact ⟨h.subscriptionId, .inl ⟨rfl, rfl, h.preConsumedQuota, fun _ => h.records⟩⟩
  token := by simp
  phase := .inl ⟨rfl, rfl, h.journals, fun refund => by cases refund <;> rfl,
    h.preConsumedQuota.symm⟩

/-! ### Quiet steps -/

variable {db' : Database} {s' : AuditedSession}

/-- The session's money fields are as before; flags may have changed. -/
structure SameMoney (newId : String) (s s' : BillingSession) : Prop where
  id : s'.billingId newId = s.billingId newId
  userId : s'.relayInfo.userId = s.relayInfo.userId
  tokenId : s'.relayInfo.tokenId = s.relayInfo.tokenId
  isPlayground : s'.relayInfo.isPlayground = s.relayInfo.isPlayground
  subscriptionId : s'.relayInfo.subscriptionId = s.relayInfo.subscriptionId
  funding : s'.funding = s.funding
  preConsumedQuota : s'.preConsumedQuota = s.preConsumedQuota
  tokenConsumed : s'.tokenConsumed = s.tokenConsumed

variable {j : JournalFact}

namespace SameMoney

variable {newId : String} {s s' : BillingSession}

theorem refl (newId : String) (s : BillingSession) : SameMoney newId s s :=
  ⟨rfl, rfl, rfl, rfl, rfl, rfl, rfl, rfl⟩

section

variable (h : SameMoney newId s s')
include h

theorem symm : SameMoney newId s' s :=
  ⟨h.id.symm, h.userId.symm, h.tokenId.symm, h.isPlayground.symm, h.subscriptionId.symm,
    h.funding.symm, h.preConsumedQuota.symm, h.tokenConsumed.symm⟩

theorem journalId (refund : Bool) : s'.journalId newId refund = s.journalId newId refund := by
  unfold BillingSession.journalId
  rw [h.id]

theorem account : s'.account = s.account := by
  unfold BillingSession.account
  rw [h.funding, h.userId]

theorem ownFact {refund : Bool} (hj : OwnFact newId s refund j) : OwnFact newId s' refund j where
  personalFact := hj.personalFact
  account := by rw [h.account, hj.account]
  tokenId := by rw [h.tokenId, hj.tokenId]
  applyToken := by rw [h.isPlayground, hj.applyToken]
  delta := by rw [h.preConsumedQuota, hj.delta]
  settles := hj.settles
  refunds := by
    rw [h.id]
    exact hj.refunds

end

/-- A request id taken from the generator is the one the session bills under. -/
theorem withRequestId (newId : String) (s : BillingSession) :
    SameMoney newId s (s.withRequestId newId) ∧
      (s.withRequestId newId).relayInfo.requestId = s.billingId newId := by
  unfold BillingSession.withRequestId BillingSession.billingId
  split
  · rename_i hempty
    refine ⟨⟨?_, rfl, rfl, rfl, rfl, rfl, rfl, rfl⟩, rfl⟩
    simp [BillingSession.billingId, hempty]
  · exact ⟨refl newId s, rfl⟩

end SameMoney

/-- The rows of the journal table are old ones, with their facts, and applied ones stay so; the
    session's record and the set of tokens are as before. -/
structure QuietTables (recordId : String) (db db' : Database) : Prop where
  rows : ∀ k row', db'.journals.get? k = some row' →
    ∃ row, db.journals.get? k = some row ∧ row'.toJournalFact = row.toJournalFact ∧
      (row.applied = true → row'.applied = true)
  record : db'.preConsumeRecords.get? recordId = db.preConsumeRecords.get? recordId
  tokens : SameTokens db db'

theorem QuietTables.refl (recordId : String) (db : Database) : QuietTables recordId db db :=
  ⟨fun _ row' h => ⟨row', h, rfl, id⟩, rfl, fun _ => rfl⟩

theorem QuietTables.none {recordId : String} (h : QuietTables recordId db db') {k : String}
    (hk : db.journals.get? k = none) : db'.journals.get? k = none := by
  cases hk' : db'.journals.get? k with
  | none => rfl
  | some row' =>
    obtain ⟨row, hrow, _⟩ := h.rows k row' hk'
    rw [hk] at hrow
    cases hrow

/-- The audit counted nothing. -/
structure QuietAudit (s s' : AuditedSession) : Prop where
  fundingNet : s'.fundingNet = s.fundingNet
  tokenNet : s'.tokenNet = s.tokenNet
  moved : ∀ refund, s'.moved refund = s.moved refund
  actuals : s.actuals ⊆ s'.actuals
  opened : s'.opened = s.opened

theorem tokenBilled_congr (newId : String) (s s' : SessionState)
    (hsession : SameMoney newId s.session s'.session) (htokens : SameTokens s.db s'.db) :
    TokenBilled s' ↔ TokenBilled s := by
  unfold TokenBilled
  rw [hsession.isPlayground, hsession.tokenId, htokens]

/-- A call in flight goes on with the journal of the one before. -/
def Continues (s s' : SessionState) : Prop :=
  ∀ call, s'.inFlight = some call → ∃ call₀, s.inFlight = some call₀ ∧
    call.stored.requestId = call₀.stored.requestId

theorem Continues.refl (s : SessionState) : Continues s s := fun call hcall => ⟨call, hcall, rfl⟩

/-- Steps that move none of the session's money keep the invariant. -/
theorem sessionInv_quiet (hinv : SessionInv newId s)
    (hdb : QuietTables (s.session.billingId newId) s.db s'.db)
    (hsession : SameMoney newId s.session s'.session)
    (hflight : Continues s.toSessionState s'.toSessionState)
    (haudit : QuietAudit s s') : SessionInv newId s' where
  unnamed k row hrow hk := by
    obtain ⟨row₀, hrow₀, hfact, _⟩ := hdb.rows k row hrow
    rw [hsession.id, hfact]
    exact hinv.unnamed k row₀ hrow₀ (fun refund => hsession.journalId refund ▸ hk refund)
  nonneg := by
    rw [hsession.preConsumedQuota]
    exact hinv.nonneg
  tokenConsumed := by rw [hsession.tokenConsumed, hsession.preConsumedQuota, hinv.tokenConsumed]
  funding := by
    intro subscriptionId preConsumed hfund
    rw [hsession.funding] at hfund
    have hknown := hinv.funding subscriptionId preConsumed hfund
    have hmoved : s'.refundMoved = s.refundMoved := haudit.moved true
    rwa [hsession.subscriptionId, hsession.preConsumedQuota, hsession.id, hdb.record, hmoved]
  token := by
    rw [haudit.tokenNet, haudit.fundingNet, hinv.token]
    simp [tokenBilled_congr newId s.toSessionState s'.toSessionState hsession hdb.tokens]
  phase := by
    rcases hinv.phase with hclosed | ⟨refund, j, hopen⟩
    · refine .inl ⟨haudit.opened.trans hclosed.opened, ?_, ?_, ?_, ?_⟩
      · cases hcall : s'.inFlight with
        | none => rfl
        | some call =>
          obtain ⟨call₀, hcall₀, _⟩ := hflight call hcall
          rw [hclosed.inFlight] at hcall₀
          cases hcall₀
      · intro refund
        rw [hsession.journalId]
        exact hdb.none (hclosed.rows refund)
      · intro refund
        rw [haudit.moved, hclosed.unmoved]
      · rw [haudit.fundingNet, hsession.preConsumedQuota, hclosed.net]
    · refine .inr ⟨refund, j, haudit.opened.trans hopen.opened, ?_, ?_, ?_, ?_,
        hsession.ownFact hopen.fact, fun hsettle => haudit.actuals (hopen.actual hsettle), ?_⟩
      · intro call hcall
        obtain ⟨call₀, hcall₀, hid⟩ := hflight call hcall
        rw [hid, hsession.journalId, hopen.inFlight call₀ hcall₀]
      · intro row hrow
        rw [hsession.journalId] at hrow
        obtain ⟨row₀, hrow₀, hfact, happlied⟩ := hdb.rows _ row hrow
        obtain ⟨hj, hmoved⟩ := hopen.row row₀ hrow₀
        rw [haudit.moved]
        exact ⟨hfact.trans hj, fun hm => happlied (hmoved hm)⟩
      · rw [hsession.journalId]
        exact hdb.none hopen.other
      · rw [haudit.moved, hopen.unmoved]
      · rw [haudit.fundingNet, haudit.moved, hsession.preConsumedQuota, hopen.net]

/-! ### The journal moves its money -/

variable {refund : Bool} {row : TaskSettlementJournal}

/-- The usage that covers the give-back is all the exact move needs. -/
theorem fundingExact_of_covers (hknown : FundingKnown newId s)
    (hfact : OwnFact newId s.session refund j) (hunmoved : s.moved refund = false)
    (hcovers : UsageCovers s.db j) : FundingExact s.db j := by
  by_cases hsrc : j.billingSource = .subscription
  · have husage := hcovers hsrc
    by_cases hrec : j.refundsRecord
    · -- only the refund goes through the record, and the record is live
      have hrefund : refund = true := by
        cases refund
        · exact absurd hrec (hfact.settles rfl)
        · rfl
      subst hrefund
      obtain ⟨hfinal, hname⟩ := hfact.refunds rfl
      have hacc := hfact.account
      rw [account_of_subscription hsrc] at hacc
      cases hf : s.session.funding with
      | wallet =>
        simp only [BillingSession.account, hf] at hacc
        cases hacc
      | subscription subscriptionId preConsumed =>
        simp only [BillingSession.account, hf, Account.subscription.injEq] at hacc
        have hdelta := hfact.delta
        rcases (hknown subscriptionId preConsumed hf).2 with ⟨_, _, h0, _⟩ | ⟨_, hle, hlive⟩
        · exact .inl (by omega)
        obtain ⟨record, hr, hamount, hsub, hstatus⟩ := hlive hunmoved
        refine .inr (.inr ?_)
        rw [if_pos hrec]
        refine ⟨record, by rw [hname hsrc, hr], hstatus, by rw [hsub, hacc], .inl ⟨?_, husage⟩⟩
        omega
    · exact .inr (.inr (by rwa [if_neg hrec]))
  · exact .inr (.inl hsrc)

/-- What the session's journal moves: the funding source by its delta, and the token, if the
    session bills one, by the same. -/
theorem ownFact_moves {s : SessionState} (hfact : OwnFact newId s.session refund row.toJournalFact)
    (hexact : FundingExact s.db row.toJournalFact) (hout : ApplyOutcome s.db row true db') :
    balance s.db s.session.account - balance db' s.session.account = row.delta ∧
      balance s.db (.tokenRemain s.session.relayInfo.tokenId) -
        balance db' (.tokenRemain s.session.relayInfo.tokenId)
        = if TokenBilled s then row.delta else 0 := by
  cases hout with
  | moved _ hnew _ _ hmove hfinish =>
  constructor
  · rw [hfinish.balance_eq, ← hfact.account, (moveMoneyTx_exact_iff hnew hmove).mpr hexact]
    omega
  rw [hfinish.balance_eq, moveMoneyTx_exact hexact hnew hmove rfl]
  have haccount : row.account ≠ .tokenRemain s.session.relayInfo.tokenId := by
    unfold JournalFact.account fundingAccount
    split <;> simp
  simp only [JournalFact.exactPosting, Pi.add_apply, entityPosting_token]
  rw [Pi.single_eq_of_ne haccount.symm]
  have hbilled : (row.applyToken = true ∧ 0 < row.tokenId ∧
      (s.db.tokens.get? row.tokenId).isSome) ↔ TokenBilled s := by
    unfold TokenBilled
    rw [hfact.applyToken, hfact.tokenId]
    simp
  unfold journalTokenPosting
  by_cases hb : TokenBilled s
  · rw [if_pos (hbilled.mpr hb), if_pos hb, hfact.tokenId]
    simp [tokenPosting]
  · rw [if_neg (fun h => hb (hbilled.mp h)), if_neg hb]
    simp

/-- The session's journal moves its money: the net debit becomes its final quota. -/
theorem sessionInv_moved (hinv : SessionInv newId s) (hopen : OpenPhase newId s refund j)
    (hrow : s.db.journals.get? (s.session.journalId newId refund) = some row)
    (hcovers : row.applied = false → UsageCovers s.db row.toJournalFact)
    (hout : ApplyOutcome s.db row true s'.db) (hsession : s'.session = s.session)
    (hflight : Continues s.toSessionState s'.toSessionState)
    (hfunding : s'.fundingNet = s.fundingNet +
      (balance s.db s.session.account - balance s'.db s.session.account))
    (htoken : s'.tokenNet = s.tokenNet
      + (balance s.db (.tokenRemain s.session.relayInfo.tokenId)
        - balance s'.db (.tokenRemain s.session.relayInfo.tokenId)))
    (hmoved : s'.moved refund = true) (hother : s'.moved (!refund) = s.moved (!refund))
    (hactuals : s.actuals ⊆ s'.actuals) (hopened : s'.opened = s.opened) : SessionInv newId s' := by
  obtain ⟨rfl, happlied⟩ := hopen.row row hrow
  have hunapplied : row.applied = false := by
    cases hout
    assumption
  have hunmoved : s.moved refund = false := by
    cases hm : s.moved refund with
    | false => rfl
    | true => cases (happlied hm).symm.trans hunapplied
  have hexact := fundingExact_of_covers hinv.funding hopen.fact hunmoved (hcovers hunapplied)
  obtain ⟨hdebit, hcharge⟩ := ownFact_moves hopen.fact hexact hout
  have hid : row.requestId = s.session.journalId newId refund := Table.key_of_get? hrow
  have hrows := hout.rows (by rw [hid, hrow])
  have hnet : s'.fundingNet = row.finalQuota := by
    have hbefore := hopen.net
    rw [hunmoved, if_neg (by decide)] at hbefore
    have hdelta := hopen.fact.delta
    omega
  have hbilled : TokenBilled s'.toSessionState ↔ TokenBilled s.toSessionState :=
    tokenBilled_congr newId _ _ (hsession ▸ SameMoney.refl newId s.session) hout.sameTokens
  refine ⟨?_, ?_, ?_, ?_, ?_, .inr ⟨refund, row.toJournalFact, ?_⟩⟩
  · intro k row' hrow' hk
    rw [hsession] at hk ⊢
    rw [hrows, if_neg (hid ▸ hk refund)] at hrow'
    exact hinv.unnamed k row' hrow' hk
  · rw [hsession]
    exact hinv.nonneg
  · rw [hsession]
    exact hinv.tokenConsumed
  · intro subscriptionId preConsumed hfund
    rw [hsession] at hfund ⊢
    obtain ⟨hsub, hrest⟩ := hinv.funding subscriptionId preConsumed hfund
    refine ⟨hsub, ?_⟩
    cases refund with
    | true =>
      -- the refund has taken the record, and nothing relies on it any more
      have hdone : s'.refundMoved ≠ false := by
        intro hno
        cases hmoved.symm.trans hno
      rcases hrest with ⟨h0, hs0, hpre, _⟩ | ⟨hpos, hle, _⟩
      · exact .inl ⟨h0, hs0, hpre, fun hno => absurd hno hdone⟩
      · exact .inr ⟨hpos, hle, fun hno => absurd hno hdone⟩
    | false =>
      rw [hout.records (.inl (hopen.fact.settles rfl))]
      have hsame : s'.refundMoved = s.refundMoved := hother
      rwa [hsame]
  · rw [htoken, hinv.token, hcharge]
    simp only [hbilled]
    split <;> omega
  · refine ⟨hopened.trans hopen.opened, ?_, ?_, ?_, ?_, ?_, ?_, ?_⟩
    · intro call hcall
      obtain ⟨call₀, hcall₀, hcid⟩ := hflight call hcall
      rw [hcid, hsession, hopen.inFlight call₀ hcall₀]
    · intro row' hrow'
      rw [hsession, hrows, if_pos hid.symm] at hrow'
      cases hrow'
      exact ⟨rfl, fun _ => rfl⟩
    · rw [hsession, hrows, if_neg]
      · exact hopen.other
      · rw [hid]
        exact (journalId_ne newId s.session refund).symm
    · rw [hother, hopen.unmoved]
    · rw [hsession]
      exact hopen.fact
    · exact fun hsettle => hactuals (hopen.actual hsettle)
    · rw [hmoved, if_pos rfl, hnet]

/-! ### A journal is persisted -/

/-- Persisting a journal safely opens the session, or repeats the journal it is open with. -/
theorem sessionInv_opened {db₀ : Database} {journal old stored : TaskSettlementJournal}
    (hinv : SessionInv newId s) (hbase : db₀ = { s.db with tasks := db₀.tasks })
    (hens : Ensured db₀ journal old stored s'.db)
    (hid : journal.requestId = s.session.journalId newId refund)
    (hsafe : OpensSafely newId s refund)
    (hfact : OwnFact newId s.session refund journal.toJournalFact)
    (hactual : refund = false → journal.finalQuota ∈ s'.actuals)
    (hsession : SameMoney newId s.session s'.session)
    (hflight : ∀ call, s'.inFlight = some call → call.stored.requestId = journal.requestId)
    (hfunding : s'.fundingNet = s.fundingNet) (htoken : s'.tokenNet = s.tokenNet)
    (hmoved : ∀ refund, s'.moved refund = s.moved refund) (hopened : s'.opened = true) :
    SessionInv newId s' := by
  have hrows : ∀ k, s'.db.journals.get? k = if k = journal.requestId then some stored
    else s.db.journals.get? k := by
    intro k
    rw [hens.rows, hbase]
  have hrecords : s'.db.preConsumeRecords = s.db.preConsumeRecords := by rw [hens.rest, hbase]
  have htokens : s'.db.tokens = s.db.tokens := by rw [hens.rest, hbase]
  obtain ⟨hstored, hflag⟩ := hens.stored_fact
  -- the phase before: closed, or open with this very journal
  have hbefore : s.db.journals.get? (s.session.journalId newId (!refund)) = none ∧
      s.moved (!refund) = false ∧
      s.fundingNet = (if s.moved refund then journal.finalQuota
        else s.session.preConsumedQuota) ∧
      (s.moved refund = true → old.applied = true) := by
    rcases hinv.phase with hclosed | ⟨refund', j, hopen⟩
    · have hno := hclosed.unmoved refund
      exact ⟨hclosed.rows _, hclosed.unmoved _, by rw [hno, hclosed.net, if_neg (by decide)],
        fun hm => absurd (hno.symm.trans hm) (by decide)⟩
    · rcases hsafe with hno | hsome
      · cases hopen.opened.symm.trans hno
      obtain ⟨row, hrow⟩ := Option.isSome_iff_exists.mp hsome
      have hsame : refund' = refund := by
        by_contra hne
        have hnot : refund = !refund' := Bool.eq_not.mpr (Ne.symm hne)
        rw [hnot, hopen.other] at hrow
        cases hrow
      subst hsame
      obtain ⟨hj, hap⟩ := hopen.row row hrow
      have hold : old = row := by
        rcases hens.source with hs | ⟨hn, _⟩
        · rw [hbase, hid] at hs
          exact Option.some.inj (hs.symm.trans hrow)
        · rw [hbase, hid] at hn
          rw [hn] at hrow
          cases hrow
      have hquota : j.finalQuota = journal.finalQuota := by
        rw [← hj, ← hold, hens.fact]
      exact ⟨hopen.other, hopen.unmoved, hquota ▸ hopen.net, hold ▸ hap⟩
  obtain ⟨hother, hunmoved, hnet, hap⟩ := hbefore
  refine ⟨?_, ?_, ?_, ?_, ?_, .inr ⟨refund, journal.toJournalFact, hopened, ?_, ?_, ?_, ?_,
    hsession.ownFact hfact, hactual, ?_⟩⟩
  · intro k row hrow hk
    have hk' : ∀ refund, k ≠ s.session.journalId newId refund :=
      fun refund => hsession.journalId refund ▸ hk refund
    rw [hrows, if_neg (hid ▸ hk' refund)] at hrow
    rw [hsession.id]
    exact hinv.unnamed k row hrow hk'
  · rw [hsession.preConsumedQuota]
    exact hinv.nonneg
  · rw [hsession.tokenConsumed, hsession.preConsumedQuota, hinv.tokenConsumed]
  · intro subscriptionId preConsumed hfund
    rw [hsession.funding] at hfund
    have hknown := hinv.funding subscriptionId preConsumed hfund
    have hsame : s'.refundMoved = s.refundMoved := hmoved true
    rwa [hsession.subscriptionId, hsession.preConsumedQuota, hsession.id, hrecords, hsame]
  · rw [htoken, hfunding, hinv.token]
    have hbilled := tokenBilled_congr newId s.toSessionState s'.toSessionState hsession
      (fun id => by rw [htokens])
    simp [hbilled]
  · intro call hcall
    rw [hflight call hcall, hid, hsession.journalId]
  · intro row hrow
    rw [hsession.journalId, hrows, if_pos hid.symm] at hrow
    cases hrow
    rw [hmoved]
    exact ⟨hstored, fun hm => hflag (hap hm)⟩
  · rw [hsession.journalId, hrows, if_neg, hother]
    rw [hid]
    exact (journalId_ne newId s.session refund).symm
  · rw [hmoved, hunmoved]
  · rw [hfunding, hmoved, hsession.preConsumedQuota, hnet]

/-! ### More is pre-consumed -/

variable {params : BillingBalancePreConsumeParams} {result : Option SubscriptionPreConsumeResult}
  {cal : Calendar} {now : Int}

/-- The funding part of an admission whose request has no record yet. -/
theorem preConsumeFundingTx_debits (hnonneg : 0 ≤ params.amount)
    (hnone : params.billingSource = .subscription → params.requestId ≠ "" →
      db.preConsumeRecords.get? params.requestId = none)
    (h : preConsumeFundingTx cal now db params = .ok (result, db')) :
    (∀ db'', db''.users = db'.users → admissionDebit db params.userId (.ok (result, db'')) =
      params.amount) ∧
      ((result = none ∧ (params.billingSource = .subscription → params.amount = 0) ∧
          db'.preConsumeRecords = db.preConsumeRecords) ∨
        (0 < params.amount ∧ ∃ res record, result = some res ∧ res.preConsumed = params.amount ∧
          params.requestId ≠ "" ∧
          db'.preConsumeRecords.get? params.requestId = some record ∧
          record.preConsumed = params.amount ∧
          record.userSubscriptionId = res.userSubscriptionId ∧ record.status ≠ .refunded)) := by
  have hwallet : ∀ db'' : Database, db''.users = db'.users →
      balance db'' (.wallet params.userId) = balance db' (.wallet params.userId) := by
    intro db'' husers
    show db''.users.column _ _ = _
    rw [husers]
    rfl
  rcases preConsumeFundingTx_ok h with ⟨h0, rfl, rfl⟩ | ⟨_, hsrc, rfl, user, hu, _, rfl⟩ |
    ⟨hpos, hsrc, res, rfl, hsub⟩
  · refine ⟨fun db'' husers => ?_, .inl ⟨rfl, fun _ => by omega, rfl⟩⟩
    rw [admissionDebit, hwallet db'' husers]
    omega
  · refine ⟨fun db'' husers => ?_, .inl ⟨rfl, fun hs => absurd (hs.symm.trans hsrc) (by decide),
      rfl⟩⟩
    rw [admissionDebit, hwallet db'' husers, balance_setWallet hu, Pi.add_apply, Pi.single_eq_same]
    omega
  · have hne := preConsumeUserSubscription_requestId hsub
    rcases preConsumeUserSubscription_ok hsub with ⟨record, hr, _⟩ | ⟨_, hcharged, -⟩
    · rw [hnone hsrc hne] at hr
      cases hr
    obtain ⟨record, hset, hrid, hrsub, hramount, hrstatus⟩ := hcharged.record
    refine ⟨fun db'' _ => ?_, .inr ⟨hpos, res, record, rfl, hcharged.result_amount, hne, ?_,
      hramount, hrsub, ?_⟩⟩
    · rw [admissionDebit, hcharged.result_after]
      omega
    · rw [hset]
      exact Table.get?_set_of_eq _ hrid
    · rw [hrstatus]
      decide

/-- The token part of an admission: a billed token is charged the amount. -/
theorem Admitted.tokenCharge (h : Admitted cal now db params result db') :
    balance db (.tokenRemain params.tokenId) - balance db' (.tokenRemain params.tokenId)
        = (if params.applyToken ∧ 0 < params.tokenId ∧
            (db.tokens.get? params.tokenId).isSome then params.amount else 0) ∧
      SameTokens db db' := by
  obtain ⟨dbF, dbT, hfund, htoken, hrest⟩ := h.balances
  have htokens : dbF.tokens = db.tokens := by rw [preConsumeFundingTx_rest hfund]
  have hfinal : db'.tokens = dbT.tokens := by rw [hrest]
  constructor
  · rcases h.token with ⟨hskip, heq⟩ | ⟨hap, hne, hdebited⟩
    · have hbal : balance db' (.tokenRemain params.tokenId) =
        balance db (.tokenRemain params.tokenId) := by
        show db'.tokens.column Token.remainQuota params.tokenId = _
        rw [heq]
        rfl
      rw [hbal]
      rcases hskip with hno | h0
      · simp [hno]
      · simp [h0]
    · have hexists : 0 < params.tokenId ∧ (db.tokens.get? params.tokenId).isSome := by
        rcases preConsumeTokenBalanceTx_ok htoken with ⟨hskip, _⟩ | ⟨_, _, hpos, token, ht, _⟩
        · rcases hskip with hno | h0
          · cases hno.symm.trans hap
          · exact absurd h0 hne
        · rw [htokens] at ht
          exact ⟨hpos, by rw [ht]; rfl⟩
      rw [if_pos ⟨hap, hexists⟩]
      have hremain := hdebited.1
      omega
  · intro id
    rw [hfinal, sameTokens_preConsumeTokenBalanceTx htoken, htokens]

end TokenGateway.Billing
