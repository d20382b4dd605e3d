import TokenGateway.Billing.Admitted
import TokenGateway.Billing.Journal

namespace TokenGateway.Billing

open Base Reseller

/-!
# What the settlement transactions write

One specification lemma for each function of `Billing.Journal`.  The results about journals are
derived from these and unfold nothing below them.

* `…_rest` — the tables a function may change;
* `…_balance` — what it posts to the ledger;
* `ensureTaskSettlementJournalTx_ok`, `applyTaskSettlementJournal_ok` — the two transactions.
-/

/-! ### The funding source of a journal -/

variable {db db' : Database} {j : TaskSettlementJournal}

/-- The journal refunds a subscription through the record of its pre-consume. -/
def JournalFact.refundsRecord (j : JournalFact) : Prop :=
  j.billingSource = .subscription ∧ j.operation = .refund ∧ j.subscriptionPreConsumeRequestId ≠ ""

instance (j : JournalFact) : Decidable j.refundsRecord := inferInstanceAs (Decidable (_ ∧ _ ∧ _))

/-- The account a journal's funding source is kept in. -/
def JournalFact.account (j : JournalFact) : Account :=
  fundingAccount j.billingSource j.userId j.subscriptionId

/-- A refund through the record: the record is given back once, and then what is left of the
    journal's amount. -/
def RecordRefunded (db : Database) (j : JournalFact) (db' : Database) : Prop :=
  ∃ refunded db₁,
    refundSubscriptionPreConsumeTx db j.subscriptionPreConsumeRequestId = .ok (refunded, db₁) ∧
    refunded = j.subscriptionPreConsumed ∧
    ((0 < -j.delta - refunded ∧
        postConsumeUserSubscriptionDeltaTx db₁ j.subscriptionId (-(-j.delta - refunded)) =
          .ok db') ∨
      (¬ 0 < -j.delta - refunded ∧ db' = db₁))

theorem applyTaskSettlementFundingTx_ok (h : applyTaskSettlementFundingTx db j = .ok db') :
    (j.delta = 0 ∧ db' = db) ∨
      (j.delta ≠ 0 ∧ j.refundsRecord ∧ RecordRefunded db j.toJournalFact db') ∨
      (j.delta ≠ 0 ∧ j.billingSource = .subscription ∧ ¬ j.refundsRecord ∧
        postConsumeUserSubscriptionDeltaTx db j.subscriptionId j.delta = .ok db') ∨
      (j.delta ≠ 0 ∧ j.billingSource ≠ .subscription ∧
        ∃ user, db.users.get? j.userId = some user ∧
          db' = setWallet db user (user.quota + -j.delta)) := by
  unfold applyTaskSettlementFundingTx at h
  split at h
  · cases h
    exact .inl ⟨by assumption, rfl⟩
  rename_i hdelta
  right
  split at h
  · rename_i hsrc
    split at h
    · -- refund through the pre-consume record
      rename_i hrec
      refine .inl ⟨hdelta, ⟨hsrc, hrec⟩, ?_⟩
      obtain ⟨⟨refunded, db₁⟩, hrefund, h⟩ := seq_ok.mp h
      dsimp only at h
      split at h
      · cases h
      rename_i hsame
      refine ⟨refunded, db₁, hrefund, not_not.mp hsame, ?_⟩
      split at h
      · exact .inl ⟨by assumption, h⟩
      · cases h
        exact .inr ⟨by assumption, rfl⟩
    · rename_i hplain
      exact .inr (.inl ⟨hdelta, hsrc, fun hr => hplain hr.2, h⟩)
  · -- a personal and an ordinary wallet differ in their guards only
    rename_i hsrc
    refine .inr (.inr ⟨hdelta, hsrc, ?_⟩)
    split at h
    · unfold adjustPersonalWalletTx at h
      split_ifs at h
      obtain ⟨user, hu, _, rfl⟩ := updateWallet_ok h
      exact ⟨user, hu, rfl⟩
    · rcases adjustUserWalletInTx_ok h with ⟨h0, _⟩ | ⟨user, hu, _, _, _, _, rfl⟩
      · omega
      · exact ⟨user, hu, rfl⟩

theorem applyTaskSettlementFundingTx_wallet (hsrc : j.billingSource ≠ .subscription)
    (h : applyTaskSettlementFundingTx db j = .ok db') :
    balance db' = balance db + Pi.single (.wallet j.userId) (-j.delta) := by
  rcases applyTaskSettlementFundingTx_ok h with ⟨h0, rfl⟩ | ⟨_, hrec, _⟩ | ⟨_, hsub, _⟩
    | ⟨_, _, user, hu, rfl⟩
  · simp [h0]
  · exact absurd hrec.1 hsrc
  · exact absurd hsub hsrc
  · rw [balance_setWallet hu, add_sub_cancel_left]

/-- A subscription moves by `-delta`, except that its usage is floored at zero. -/
theorem applyTaskSettlementFundingTx_subscription (hsrc : j.billingSource = .subscription)
    (hplain : ¬ j.refundsRecord) (h : applyTaskSettlementFundingTx db j = .ok db') :
    balance db' = balance db + Pi.single (.subscription j.subscriptionId)
      (-max j.delta (balance db (.subscription j.subscriptionId))) := by
  rcases applyTaskSettlementFundingTx_ok h with ⟨h0, rfl⟩ | ⟨_, hrec, _⟩ | ⟨_, _, _, hpost⟩
    | ⟨_, hwallet, _⟩
  · rw [h0, max_eq_left (balance_subscription_nonpos db' j.subscriptionId)]
    simp
  · exact absurd hrec hplain
  · exact postConsumeUserSubscriptionDeltaTx_balance hpost
  · exact absurd hsrc hwallet

theorem refundSubscriptionPreConsumeTx_rest {requestId : String} {refunded : Int}
    (h : refundSubscriptionPreConsumeTx db requestId = .ok (refunded, db')) :
    db' = { db with
      subscriptions := db'.subscriptions, preConsumeRecords := db'.preConsumeRecords } := by
  obtain ⟨record, _, _, ⟨_, rfl⟩ | ⟨_, sub, _, rfl⟩⟩ := refundSubscriptionPreConsumeTx_ok h <;> rfl

section

variable (h : applyTaskSettlementFundingTx db j = .ok db')
include h

theorem applyTaskSettlementFundingTx_rest :
    db' = { db with
      users := db'.users, subscriptions := db'.subscriptions
      preConsumeRecords := db'.preConsumeRecords } := by
  rcases applyTaskSettlementFundingTx_ok h with ⟨_, rfl⟩ | ⟨_, _, refunded, db₁, hrefund, _, hlast⟩
    | ⟨_, _, _, hpost⟩ | ⟨_, _, user, _, rfl⟩
  · rfl
  · rcases hlast with ⟨_, hpost⟩ | ⟨_, rfl⟩
    · rw [postConsumeUserSubscriptionDeltaTx_rest hpost,
        refundSubscriptionPreConsumeTx_rest hrefund]
    · rw [refundSubscriptionPreConsumeTx_rest hrefund]
  · rw [postConsumeUserSubscriptionDeltaTx_rest hpost]
  · rfl

/-- A journal touches no pre-consume record but the one it names. -/
theorem applyTaskSettlementFundingTx_records {requestId : String}
    (hne : j.subscriptionPreConsumeRequestId ≠ requestId) :
    db'.preConsumeRecords.get? requestId = db.preConsumeRecords.get? requestId := by
  rcases applyTaskSettlementFundingTx_ok h with ⟨_, rfl⟩ | ⟨_, _, refunded, db₁, hrefund, _, hlast⟩
    | ⟨_, _, _, hpost⟩ | ⟨_, _, user, _, rfl⟩
  · rfl
  · have hmid : db'.preConsumeRecords = db₁.preConsumeRecords := by
      rcases hlast with ⟨_, hpost⟩ | ⟨_, rfl⟩
      · rw [postConsumeUserSubscriptionDeltaTx_rest hpost]
      · rfl
    rw [hmid]
    obtain ⟨record, hr, _, ⟨_, rfl⟩ | ⟨_, sub, _, rfl⟩⟩ := refundSubscriptionPreConsumeTx_ok hrefund
    · rfl
    · exact Table.get?_set_of_ne _ (fun heq => hne ((Table.key_of_get? hr).symm.trans heq))
  · rw [postConsumeUserSubscriptionDeltaTx_rest hpost]
  · rfl

end

/-! ### Token, entity and usage -/

variable {a : Account}

/-- What a journal posts to its token: nothing when the token is gone. -/
def journalTokenPosting (db : Database) (j : JournalFact) : Account → Int :=
  if j.applyToken ∧ 0 < j.tokenId ∧ (db.tokens.get? j.tokenId).isSome then
    tokenPosting j.tokenId j.delta
  else 0

theorem applyTaskSettlementTokenTx_balance (db : Database) (j : TaskSettlementJournal) :
    balance (applyTaskSettlementTokenTx db j) = balance db +
      journalTokenPosting db j.toJournalFact := by
  unfold applyTaskSettlementTokenTx journalTokenPosting
  split
  · rename_i hskip
    rcases hskip with hf | hid | h0
    · simp [hf]
    · rw [if_neg (by omega), add_zero]
    · rw [h0, tokenPosting_zero, ite_self, add_zero]
  · rename_i hgo
    simp only [not_or, Bool.not_eq_false, not_le] at hgo
    cases ht : db.tokens.get? j.tokenId with
    | none => simp
    | some token =>
      rw [if_pos ⟨hgo.1, hgo.2.1, rfl⟩, tokenPosting, ← add_assoc]
      exact balance_chargeToken ht j.delta

theorem applyTaskSettlementTokenTx_rest (db : Database) (j : TaskSettlementJournal) :
    applyTaskSettlementTokenTx db j =
      { db with tokens := (applyTaskSettlementTokenTx db j).tokens } := by
  unfold applyTaskSettlementTokenTx
  split
  · rfl
  · split <;> rfl

/-- What a change of an entity's quota posts. -/
def entityPosting (entity : SettlementEntity) (id d : Int) : Account → Int :=
  match entity with
  | .task => Pi.single (.taskQuota id) d
  | .midjourney => Pi.single (.midjourneyQuota id) d
  | _ => 0

@[simp] theorem entityPosting_zero (entity : SettlementEntity) (id : Int) :
    entityPosting entity id 0 = 0 := by
  cases entity <;> simp [entityPosting]

theorem balance_setEntityRow {entity : SettlementEntity} {id : Int} {row : Task}
    (h : entityRow db entity id = some row) (row' : Task) (hid : row'.id = row.id) :
    balance (setEntityRow db entity row') = balance db +
      entityPosting entity id (row'.quota - row.quota) := by
  have hrow : row.id = id := entityRow_id h
  have hkey : row'.id = id := hid.trans hrow
  funext a
  cases entity with
  | task =>
    have hcol : db.tasks.column Task.quota id = row.quota := Table.column_of_get? h Task.quota
    cases a <;>
      simp [balance, setEntityRow, entityPosting, Table.column_set, Pi.single_apply, hkey, hcol]
  | midjourney =>
    have hcol : db.midjourneys.column Task.quota id = row.quota := Table.column_of_get? h Task.quota
    cases a <;>
      simp [balance, setEntityRow, entityPosting, Table.column_set, Pi.single_apply, hkey, hcol]
  | absent | other name => cases h

section

variable (h : updateTaskSettlementEntityTx db j = .ok db')
include h

/-- A committed entity update found the expected quota and wrote the final one. -/
theorem updateTaskSettlementEntityTx_ok :
    ((j.entityType = .absent ∨ j.personalFact.isSome ∧ j.entityExpectedQuota = j.entityFinalQuota) ∧
      db' = db) ∨ ∃ row, entityRow db j.entityType j.entityId = some row ∧
        row.quota = j.entityExpectedQuota ∧
        db' = setEntityRow db j.entityType { row with quota := j.entityFinalQuota } := by
  unfold updateTaskSettlementEntityTx at h
  split at h
  · rename_i hsame
    cases h
    exact .inl ⟨.inr hsame, rfl⟩
  split at h
  · rename_i habs
    cases h
    exact .inl ⟨.inl habs, rfl⟩
  split at h
  · cases h
  right
  split at h
  · rename_i row hrow
    split_ifs at h with hq
    cases h
    exact ⟨row, hrow, hq, rfl⟩
  · cases h

theorem updateTaskSettlementEntityTx_balance :
    balance db' = balance db + entityPosting j.entityType j.entityId
      (j.entityFinalQuota - j.entityExpectedQuota) := by
  rcases updateTaskSettlementEntityTx_ok h with ⟨habs | ⟨_, hsame⟩, rfl⟩ | ⟨row, hrow, hq, rfl⟩
  · simp [habs, entityPosting]
  · simp [hsame]
  · rw [← hq]
    exact balance_setEntityRow hrow _ rfl

theorem updateTaskSettlementEntityTx_rest :
    db' = { db with tasks := db'.tasks, midjourneys := db'.midjourneys } := by
  rcases updateTaskSettlementEntityTx_ok h with ⟨_, rfl⟩ | ⟨row, hrow, _, rfl⟩
  · rfl
  · rcases entity_of_entityRow hrow with he | he <;> rw [he] <;> rfl

end

/-- The usage counters are accounts of their own. -/
def Account.isUsage : Account → Bool
  | .userUsed _ => true
  | .userRequests _ => true
  | .channelUsed _ => true
  | _ => false

theorem addUserUsage_balance (db : Database) (userId usage : Int) (ha : a.isUsage = false) :
    balance (addUserUsage db userId usage) a = balance db a := by
  unfold addUserUsage
  split
  · rename_i user hu
    have hid : user.id = userId := Table.key_of_get? hu
    have hcol : db.users.column User.quota userId = user.quota := Table.column_of_get? hu User.quota
    cases a with
    | wallet id => simp [balance, Table.column_set, hid, hcol]
    | userUsed id | userRequests id | channelUsed id => cases ha
    | _ => rfl
  · rfl

theorem addChannelUsage_balance (db : Database) (channelId usage : Int) (ha : a.isUsage = false) :
    balance (addChannelUsage db channelId usage) a = balance db a := by
  unfold addChannelUsage
  split
  · cases a with
    | userUsed id | userRequests id | channelUsed id => cases ha
    | _ => rfl
  · rfl

theorem applyTaskSettlementUsageTx_balance (db : Database) (j : TaskSettlementJournal)
    (ha : a.isUsage = false) : balance (applyTaskSettlementUsageTx db j) a = balance db a := by
  unfold applyTaskSettlementUsageTx
  split
  · rfl
  · split
    · exact addUserUsage_balance db _ _ ha
    · rw [addChannelUsage_balance _ _ _ ha, addUserUsage_balance db _ _ ha]

theorem applyTaskSettlementUsageTx_rest (db : Database) (j : TaskSettlementJournal) :
    applyTaskSettlementUsageTx db j
      = { db with
          users := (applyTaskSettlementUsageTx db j).users
          channels := (applyTaskSettlementUsageTx db j).channels } := by
  unfold applyTaskSettlementUsageTx addUserUsage addChannelUsage
  split
  · rfl
  · dsimp only
    repeat' split
    all_goals rfl

/-! ### Moving the money of a journal -/

/-- No receipt proves the journal's personal fact applied. -/
def Unreceipted (db : Database) (j : JournalFact) : Prop :=
  ∀ fact, j.personalFact = some fact → db.receipts.get? fact.operationId = none

/-- What a journal takes from its funding source: a subscription gives back no more than its
    usage. -/
def JournalFact.debit (j : JournalFact) (db : Database) : Int :=
  if j.billingSource = .subscription then
    max j.delta (balance db (.subscription j.subscriptionId))
  else j.delta

/-- The parameters a reservation journal is charged with. -/
def reserveParams (j : JournalFact) (unlimited : Bool) : BillingBalanceReserveParams :=
  { personalFact := j.personalFact, requireAvailableQuota := true, userId := j.userId,
    amount := j.delta, billingSource := j.billingSource, subscriptionId := j.subscriptionId,
    tokenId := j.tokenId, applyToken := j.applyToken, tokenUnlimited := unlimited }

/-- A reservation moves its balances on admission terms; every other journal adjusts funding
    and token. -/
theorem moveBalancesTx_ok (h : moveBalancesTx db j = .ok db') :
    (j.operation = .reserve ∧ taskSubmissionBillingPending db j.entityId = false ∧
        ∃ unlimited, reserveBillingBalances db (reserveParams j.toJournalFact unlimited) =
          .ok db') ∨
      (j.operation ≠ .reserve ∧ ∃ db₁, applyTaskSettlementFundingTx db j = .ok db₁ ∧
        db' = applyTaskSettlementTokenTx db₁ j) := by
  unfold moveBalancesTx at h
  split at h
  · rename_i hop
    left
    unfold reserveTaskSettlementBalancesTx at h
    split at h
    · cases h
    split at h
    · cases h
    split_ifs at h with hpending
    obtain ⟨unlimited, _, h⟩ := seq_ok.mp h
    exact ⟨hop, by simpa using hpending, unlimited, h⟩
  · obtain ⟨db₁, hfund, h⟩ := seq_ok.mp h
    cases h
    exact .inr ⟨by assumption, db₁, hfund, rfl⟩

theorem moveBalancesTx_rest (h : moveBalancesTx db j = .ok db') :
    db' = { db with
      users := db'.users, tokens := db'.tokens, subscriptions := db'.subscriptions
      preConsumeRecords := db'.preConsumeRecords
      requests := db'.requests, events := db'.events, receipts := db'.receipts } := by
  rcases moveBalancesTx_ok h with ⟨_, _, unlimited, hres⟩ | ⟨_, db₁, hfund, rfl⟩
  · rw [reserveBillingBalances_rest hres]
  · rw [applyTaskSettlementTokenTx_rest, applyTaskSettlementFundingTx_rest hfund]

/-- Every journal but a refund through a record posts its debit to the funding source and its
    delta to the token. -/
theorem moveBalancesTx_balance (hplain : ¬ j.refundsRecord) (hnew : Unreceipted db j.toJournalFact)
    (h : moveBalancesTx db j = .ok db') :
    balance db' = balance db + Pi.single j.account (-(j.debit db)) +
      journalTokenPosting db j.toJournalFact := by
  rcases moveBalancesTx_ok h with ⟨_, _, unlimited, hres⟩ | ⟨_, db₁, hfund, rfl⟩
  · obtain ⟨hpos, _⟩ := reserveBillingBalances_ok hres
    have hdebit : j.debit db = j.delta := by
      unfold JournalFact.debit
      split
      · have hle := balance_subscription_nonpos db j.subscriptionId
        have hd : 0 < j.delta := hpos
        omega
      · rfl
    have htoken : (if j.applyToken then tokenPosting j.tokenId j.delta else 0)
        = journalTokenPosting db j.toJournalFact := by
      unfold journalTokenPosting
      by_cases hap : j.applyToken = true
      · rw [if_pos hap, if_pos ⟨hap, reserveBillingBalances_token hres hnew hap⟩]
      · rw [if_neg hap, if_neg (fun hc => hap hc.1)]
    rw [reserveBillingBalances_balance hres hnew, hdebit, ← htoken]
    rfl
  · have htokens : db₁.tokens = db.tokens := by rw [applyTaskSettlementFundingTx_rest hfund]
    have hposting : journalTokenPosting db₁ j.toJournalFact =
      journalTokenPosting db j.toJournalFact := by
      unfold journalTokenPosting
      rw [htokens]
    rw [applyTaskSettlementTokenTx_balance, hposting]
    by_cases hsrc : j.billingSource = .subscription
    · rw [applyTaskSettlementFundingTx_subscription hsrc hplain hfund]
      simp [JournalFact.account, JournalFact.debit, fundingAccount, hsrc]
    rw [applyTaskSettlementFundingTx_wallet hsrc hfund]
    have hacc : j.account = .wallet j.userId := by
      unfold JournalFact.account fundingAccount
      split
      · exact absurd (by assumption) hsrc
      · rfl
    rw [hacc]
    simp [JournalFact.debit, hsrc]

theorem moveMoneyTx_ok (h : moveMoneyTx db j = .ok db') :
    ∃ db₁ db₂, moveBalancesTx db j = .ok db₁ ∧ updateTaskSettlementEntityTx db₁ j = .ok db₂ ∧
      db' = applyTaskSettlementUsageTx db₂ j := by
  obtain ⟨db₁, hbal, h⟩ := seq_ok.mp h
  obtain ⟨db₂, hent, h⟩ := seq_ok.mp h
  cases h
  exact ⟨db₁, db₂, hbal, hent, rfl⟩

/-- What a journal posts: its funding source, its token and its entity's quota. -/
def JournalFact.posting (j : JournalFact) (db : Database) : Account → Int :=
  Pi.single j.account (-(j.debit db)) + journalTokenPosting db j
    + entityPosting j.entityType j.entityId (j.entityFinalQuota - j.entityExpectedQuota)

/-- **The posting of a journal.** Apart from the usage counters, moving the money of a journal
    posts exactly its posting. -/
theorem moveMoneyTx_balance (hplain : ¬ j.refundsRecord) (hnew : Unreceipted db j.toJournalFact)
    (h : moveMoneyTx db j = .ok db') (ha : a.isUsage = false) :
    balance db' a = balance db a + j.posting db a := by
  obtain ⟨db₁, db₂, hbal, hent, rfl⟩ := moveMoneyTx_ok h
  rw [applyTaskSettlementUsageTx_balance db₂ j ha, updateTaskSettlementEntityTx_balance hent,
    moveBalancesTx_balance hplain hnew hbal]
  simp [JournalFact.posting, add_assoc]

end TokenGateway.Billing
