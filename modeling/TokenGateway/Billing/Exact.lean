import TokenGateway.Billing.Settlement

namespace TokenGateway.Billing

open Base Reseller

/-!
# When a journal moves its funding source exactly

A wallet always moves by `-delta`.  A subscription gives back no more than its usage, and a
refund through a pre-consume record gives the record back at most once, so there the delta is
moved exactly under a condition on the state before (`FundingExact`).

* `recordRefunded_exact_iff` — the condition for a refund through a record;
* `moveMoneyTx_exact` — what an exactly moved journal posts to the whole ledger;
* `moveMoneyTx_exact_iff` — the condition is the right one.
-/

variable {j : TaskSettlementJournal} {db db' : Database}

/-- The pre-consume record of a refund is live, of the same subscription, and together with the
    usage covers exactly what the journal gives back. -/
def RecordCovers (db : Database) (j : JournalFact) : Prop :=
  ∃ record, db.preConsumeRecords.get? j.subscriptionPreConsumeRequestId = some record ∧
    record.status ≠ .refunded ∧ record.userSubscriptionId = j.subscriptionId ∧
    ((record.preConsumed ≤ -j.delta ∧ balance db (.subscription j.subscriptionId) ≤ j.delta) ∨
      (-j.delta < record.preConsumed ∧ balance db (.subscription j.subscriptionId) = j.delta))

/-- The floor and the pre-consume record leave the journal's delta whole. -/
def FundingExact (db : Database) (j : JournalFact) : Prop :=
  j.delta = 0 ∨ j.billingSource ≠ .subscription ∨
    (if j.refundsRecord then RecordCovers db j
      else balance db (.subscription j.subscriptionId) ≤ j.delta)

theorem account_of_subscription {j : JournalFact} (hsrc : j.billingSource = .subscription) :
    j.account = .subscription j.subscriptionId := by
  unfold JournalFact.account fundingAccount
  rw [hsrc]

/-- What giving a record back posts: nothing for a refunded one. -/
theorem refundSubscriptionPreConsumeTx_balance {requestId : String} {refunded : Int}
    (h : refundSubscriptionPreConsumeTx db requestId = .ok (refunded, db')) :
    ∃ record, db.preConsumeRecords.get? requestId = some record ∧ refunded = record.preConsumed ∧
      balance db' = balance db + Pi.single (.subscription record.userSubscriptionId)
        (if record.status = .refunded then 0
          else -max (-record.preConsumed) (balance db
            (.subscription record.userSubscriptionId))) := by
  obtain ⟨record, hr, hamount, ⟨hdone, rfl⟩ | ⟨hlive, sub, hs, rfl⟩⟩ :=
    refundSubscriptionPreConsumeTx_ok h
  · exact ⟨record, hr, hamount, by simp [hdone]⟩
  refine ⟨record, hr, hamount, ?_⟩
  have hbal : balance db (.subscription record.userSubscriptionId) = -sub.amountUsed :=
    Table.column_of_get? hs (fun s => -s.amountUsed)
  rw [balance_markRefunded, balance_setAmountUsed hs]
  congr 2
  unfold usedAfter
  split <;> omega

theorem recordRefunded_balance {j : JournalFact} (h : RecordRefunded db j db') :
    ∃ record db₁, db.preConsumeRecords.get? j.subscriptionPreConsumeRequestId = some record ∧
      balance db₁ = balance db + Pi.single (.subscription record.userSubscriptionId)
        (if record.status = .refunded then 0
          else -max (-record.preConsumed) (balance db (.subscription record.userSubscriptionId))) ∧
      balance db' = balance db₁ + Pi.single (.subscription j.subscriptionId)
        (if 0 < -j.delta - record.preConsumed then
            -max (-(-j.delta - record.preConsumed)) (balance db₁ (.subscription j.subscriptionId))
          else 0) := by
  obtain ⟨refunded, db₁, hrefund, _, hlast⟩ := h
  obtain ⟨record, hr, rfl, hbal⟩ := refundSubscriptionPreConsumeTx_balance hrefund
  refine ⟨record, db₁, hr, hbal, ?_⟩
  rcases hlast with ⟨hmore, hpost⟩ | ⟨hdone, rfl⟩
  · rw [if_pos hmore]
    exact postConsumeUserSubscriptionDeltaTx_balance hpost
  · rw [if_neg hdone]
    simp

/-- A refund through a record moves its subscription by exactly `-delta` iff the record and the
    usage cover it. -/
theorem recordRefunded_exact_iff {j : JournalFact} (hdelta : j.delta ≠ 0)
    (h : RecordRefunded db j db') :
    balance db' (.subscription j.subscriptionId)
        = balance db (.subscription j.subscriptionId) - j.delta ↔ RecordCovers db j := by
  obtain ⟨record, db₁, hr, hfirst, hsecond⟩ := recordRefunded_balance h
  have hpos := record.preConsumed_pos
  have hcovers : RecordCovers db j ↔ record.status ≠ .refunded ∧
      record.userSubscriptionId = j.subscriptionId ∧
      ((record.preConsumed ≤ -j.delta ∧ balance db (.subscription j.subscriptionId) ≤ j.delta) ∨
        (-j.delta < record.preConsumed ∧ balance db (.subscription j.subscriptionId) =
          j.delta)) := by
    unfold RecordCovers
    rw [hr]
    simp
  rw [hcovers, hsecond, Pi.add_apply, Pi.single_eq_same, hfirst, Pi.add_apply]
  by_cases hsub : record.userSubscriptionId = j.subscriptionId
  · rw [hsub, Pi.single_eq_same]
    by_cases hdone : record.status = .refunded
    · simp only [hdone, ne_eq, not_true_eq_false, false_and, iff_false, if_true]
      split <;> omega
    · simp only [hdone, ne_eq, not_false_eq_true, true_and, if_false]
      split <;> omega
  · -- another subscription gets the record back, so this one moves too little
    have hne : Account.subscription j.subscriptionId ≠
      Account.subscription record.userSubscriptionId := by
      intro heq
      exact hsub (Account.subscription.inj heq).symm
    rw [Pi.single_eq_of_ne hne]
    simp only [hsub, false_and, and_false, iff_false]
    split <;> omega

/-- With a covering record the posting is exact on the whole ledger. -/
theorem recordRefunded_balance_of_covers {j : JournalFact} (hdelta : j.delta ≠ 0)
    (h : RecordRefunded db j db') (hc : RecordCovers db j) :
    balance db' = balance db + Pi.single (.subscription j.subscriptionId) (-j.delta) := by
  have hexact := (recordRefunded_exact_iff hdelta h).mpr hc
  obtain ⟨record, db₁, hr, hfirst, hsecond⟩ := recordRefunded_balance h
  obtain ⟨record', hr', _, hsub, _⟩ := hc
  obtain rfl : record = record' := Option.some.inj (hr.symm.trans hr')
  rw [hsub] at hfirst
  funext a
  by_cases ha : a = .subscription j.subscriptionId
  · rw [ha, hexact, Pi.add_apply, Pi.single_eq_same, sub_eq_add_neg]
  · rw [hsecond, hfirst]
    simp only [Pi.add_apply, Pi.single_eq_of_ne ha, add_zero]

/-- A plain journal's debit is its delta exactly when the funding source moves exactly. -/
theorem debit_eq_delta_iff {j : JournalFact} (hplain : ¬ j.refundsRecord) :
    j.debit db = j.delta ↔ FundingExact db j := by
  unfold JournalFact.debit FundingExact
  rw [if_neg hplain]
  by_cases hsrc : j.billingSource = .subscription
  · have hle := balance_subscription_nonpos db j.subscriptionId
    simp only [hsrc, if_true, ne_eq, not_true_eq_false, false_or]
    omega
  · simp [hsrc]

/-- A refund through a record leaves the tokens to the token statement. -/
theorem moveBalancesTx_record (hrec : j.refundsRecord) (h : moveBalancesTx db j = .ok db') :
    ∃ db₁, (j.delta = 0 ∧ db₁ = db ∨ j.delta ≠ 0 ∧ RecordRefunded db j.toJournalFact db₁) ∧
      balance db' = balance db₁ + journalTokenPosting db j.toJournalFact := by
  rcases moveBalancesTx_ok h with ⟨hop, _⟩ | ⟨_, db₁, hfund, rfl⟩
  · cases hrec.2.1.symm.trans hop
  have htokens : db₁.tokens = db.tokens := by rw [applyTaskSettlementFundingTx_rest hfund]
  refine ⟨db₁, ?_, ?_⟩
  · rcases applyTaskSettlementFundingTx_ok hfund with h0 | ⟨hne, _, hr⟩ | ⟨_, _, hplain, _⟩
      | ⟨_, hsrc, _⟩
    · exact .inl h0
    · exact .inr ⟨hne, hr⟩
    · exact absurd hrec hplain
    · exact absurd hrec.1 hsrc
  · rw [applyTaskSettlementTokenTx_balance]
    unfold journalTokenPosting
    rw [htokens]

/-- The balances of a journal whose funding source moves exactly. -/
theorem moveBalancesTx_exact (hexact : FundingExact db j.toJournalFact)
    (hnew : Unreceipted db j.toJournalFact) (h : moveBalancesTx db j = .ok db') :
    balance db' = balance db + Pi.single j.account (-j.delta) +
      journalTokenPosting db j.toJournalFact := by
  by_cases hrec : j.refundsRecord
  · obtain ⟨db₁, hfund, hbal⟩ := moveBalancesTx_record hrec h
    rw [hbal]
    rcases hfund with ⟨h0, rfl⟩ | ⟨hne, hr⟩
    · simp [h0]
    rcases hexact with h0 | hsrc | hcov
    · exact absurd h0 hne
    · exact absurd hrec.1 hsrc
    · rw [if_pos hrec] at hcov
      rw [recordRefunded_balance_of_covers hne hr hcov, account_of_subscription hrec.1]
  · rw [moveBalancesTx_balance hrec hnew h, (debit_eq_delta_iff hrec).mpr hexact]

theorem journalTokenPosting_account (db : Database) (j j' : JournalFact) :
    journalTokenPosting db j j'.account = 0 := by
  unfold journalTokenPosting tokenPosting JournalFact.account fundingAccount
  split
  · split <;> simp
  · rfl

theorem entityPosting_account (entity : SettlementEntity) (id d : Int) (j : JournalFact) :
    entityPosting entity id d j.account = 0 := by
  unfold JournalFact.account fundingAccount
  cases entity <;> cases j.billingSource <;> simp [entityPosting]

theorem entityPosting_token (entity : SettlementEntity) (id d tokenId : Int) :
    entityPosting entity id d (.tokenRemain tokenId) = 0 ∧
      entityPosting entity id d (.tokenUsed tokenId) = 0 := by
  cases entity <;> simp [entityPosting]

theorem account_isUsage (j : JournalFact) : j.account.isUsage = false := by
  unfold JournalFact.account fundingAccount
  split <;> rfl

/-- What an exactly moved journal posts. -/
def JournalFact.exactPosting (j : JournalFact) (db : Database) : Account → Int :=
  Pi.single j.account (-j.delta) + journalTokenPosting db j
    + entityPosting j.entityType j.entityId (j.entityFinalQuota - j.entityExpectedQuota)

theorem moveMoneyTx_exact (hexact : FundingExact db j.toJournalFact)
    (hnew : Unreceipted db j.toJournalFact) (h : moveMoneyTx db j = .ok db') {a : Account}
    (ha : a.isUsage = false) : balance db' a = balance db a + j.exactPosting db a := by
  obtain ⟨db₁, db₂, hbal, hent, rfl⟩ := moveMoneyTx_ok h
  rw [applyTaskSettlementUsageTx_balance db₂ j ha, updateTaskSettlementEntityTx_balance hent,
    moveBalancesTx_exact hexact hnew hbal]
  simp [JournalFact.exactPosting, add_assoc]

/-- **Exactly when a moved journal moved its funding source by `-delta`.** -/
theorem moveMoneyTx_exact_iff (hnew : Unreceipted db j.toJournalFact)
    (h : moveMoneyTx db j = .ok db') :
    balance db' j.account = balance db j.account - j.delta ↔ FundingExact db j.toJournalFact := by
  constructor
  · intro hbal
    obtain ⟨db₁, db₂, hmove, hent, rfl⟩ := moveMoneyTx_ok h
    rw [applyTaskSettlementUsageTx_balance db₂ j (account_isUsage _),
      updateTaskSettlementEntityTx_balance hent, Pi.add_apply, entityPosting_account,
      add_zero] at hbal
    by_cases hrec : j.refundsRecord
    · obtain ⟨db₀, hfund, hpost⟩ := moveBalancesTx_record hrec hmove
      rw [hpost, Pi.add_apply, journalTokenPosting_account, add_zero,
        account_of_subscription hrec.1] at hbal
      rcases hfund with ⟨h0, _⟩ | ⟨hne, hr⟩
      · exact .inl h0
      · refine .inr (.inr ?_)
        rw [if_pos hrec]
        exact (recordRefunded_exact_iff hne hr).mp hbal
    · rw [moveBalancesTx_balance hrec hnew hmove, Pi.add_apply, Pi.add_apply, Pi.single_eq_same,
        journalTokenPosting_account] at hbal
      exact (debit_eq_delta_iff hrec).mp (by omega)
  · intro hexact
    rw [moveMoneyTx_exact hexact hnew h (account_isUsage _), JournalFact.exactPosting,
      Pi.add_apply, Pi.add_apply, Pi.single_eq_same, journalTokenPosting_account,
      entityPosting_account]
    ring

end TokenGateway.Billing
