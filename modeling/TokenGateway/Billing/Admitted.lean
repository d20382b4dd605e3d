import TokenGateway.Billing.Admission

namespace TokenGateway.Billing

open Base Reseller

/-!
# What an admission debits

A committed admission should debit the funding source and the token by the same amount, or
nothing at all, and nothing for a request that was admitted before.

* `preConsumeBillingBalances_ok` — the statements of a committed admission;
* `AdmissionSafe` — both balances or neither, and each request once;
* `preConsumeBillingBalances_safe_iff` — exactly when a committed admission is safe.

Replays are detected for a personal fact and for the usage of a subscription, never for the
token and never for the wallet of a plain request (`admission_replay_debits`).
-/

variable {cal : Calendar} {now : Int}

/-! ### The statements of a committed admission -/

variable {db db' : Database} {result : Option SubscriptionPreConsumeResult}

theorem preConsumeFundingTx_ok {params : BillingBalancePreConsumeParams}
    (h : preConsumeFundingTx cal now db params = .ok (result, db')) :
    (params.amount ≤ 0 ∧ result = none ∧ db' = db) ∨
      (0 < params.amount ∧ params.billingSource = .wallet ∧ result = none ∧
        ∃ user, db.users.get? params.userId = some user ∧ params.amount ≤ user.quota ∧
          db' = setWallet db user (user.quota - params.amount)) ∨
      (0 < params.amount ∧ params.billingSource = .subscription ∧
        ∃ res, result = some res ∧
          preConsumeUserSubscription cal db params.requestId params.userId params.amount now =
            .ok (res, db')) := by
  unfold preConsumeFundingTx at h
  split at h
  · rename_i hpos
    right
    split at h
    · rename_i hsrc
      obtain ⟨⟨res, db₁⟩, hsub, h⟩ := seq_ok.mp h
      cases h
      exact .inr ⟨hpos, hsrc, res, rfl, hsub⟩
    · rename_i hsrc
      obtain ⟨db₁, hdebit, h⟩ := seq_ok.mp h
      cases h
      exact .inl ⟨hpos, hsrc, rfl, debitWalletTx_ok hdebit⟩
    · cases h
  · rename_i hpos
    cases h
    exact .inl ⟨by omega, rfl, rfl⟩

/-- The operation of a personal fact has its receipt. -/
def Replayed (db : Database) (fact : Option PersonalBillingFact) : Prop :=
  ∃ f receipt, fact = some f ∧ db.receipts.get? f.operationId = some receipt ∧ receipt.fact = f

/-- The subscription a pre-consume charged; `0` for none. -/
def chargedSubscription : Option SubscriptionPreConsumeResult → Int
  | some result => result.userSubscriptionId
  | none => 0

/-- The statements of an admission that is no replay. -/
structure Admitted (cal : Calendar) (now : Int) (db : Database)
    (params : BillingBalancePreConsumeParams) (result : Option SubscriptionPreConsumeResult)
    (db' : Database) : Prop where
  unused : ∀ fact, params.personalFact = some fact → db.receipts.get? fact.operationId = none
  valid : validatePersonalFundingTx db params.userId params.billingSource params.personalFact =
    .ok ()
  statements : ∃ dbF dbT dbR, preConsumeFundingTx cal now db params = .ok (result, dbF) ∧
    preConsumeTokenBalanceTx dbF params.tokenId params.amount params.applyToken
      params.tokenUnlimited = .ok dbT ∧
    recordPersonalFundingTx dbT params.personalFact params.userId params.amount params.tokenId
      params.applyToken params.billingSource (chargedSubscription result) = .ok dbR ∧
    applyPersonalBillingFactTx dbR params.personalFact = .ok db'

/-- **A committed admission** is a replay of its personal fact, or ran all its statements. -/
theorem preConsumeBillingBalances_ok {params : BillingBalancePreConsumeParams}
    (h : preConsumeBillingBalances cal now db params = .ok (result, db')) :
    0 < params.userId ∧ 0 ≤ params.amount ∧
      ((Replayed db params.personalFact ∧ result = none ∧ db' = db) ∨
        Admitted cal now db params result db') := by
  unfold preConsumeBillingBalances at h
  split_ifs at h with hparams
  refine ⟨by omega, by omega, ?_⟩
  unfold preConsumeBillingBalancesTx at h
  obtain ⟨replay, hreplay, h⟩ := seq_ok.mp h
  have hcases : (replay = true ∧ Replayed db params.personalFact) ∨
      (replay = false ∧ ∀ fact, params.personalFact = some fact →
        db.receipts.get? fact.operationId = none) := by
    cases hf : params.personalFact with
    | none =>
      rw [hf] at hreplay
      cases hreplay
      exact .inr ⟨rfl, fun fact hfact => absurd hfact (by simp)⟩
    | some fact =>
      rw [hf] at hreplay
      rcases personalBillingReplayTx_ok hreplay with ⟨hno, hnone⟩ | ⟨hyes, receipt, hr, heq⟩
      · refine .inr ⟨hno, fun fact' hfact => ?_⟩
        obtain rfl := Option.some.inj hfact
        exact hnone
      · exact .inl ⟨hyes, fact, receipt, rfl, hr, heq⟩
  rcases hcases with ⟨rfl, hdone⟩ | ⟨rfl, hnew⟩
  · simp only [if_true] at h
    cases h
    exact .inl ⟨hdone, rfl, rfl⟩
  · dsimp only at h
    obtain ⟨_, hvalid, h⟩ := seq_ok.mp h
    obtain ⟨⟨res, dbF⟩, hfund, h⟩ := seq_ok.mp h
    obtain ⟨dbT, htoken, h⟩ := seq_ok.mp h
    obtain ⟨dbR, hrecord, h⟩ := seq_ok.mp h
    obtain ⟨dbA, happly, h⟩ := seq_ok.mp h
    cases h
    exact .inr ⟨hnew, hvalid, dbF, dbT, dbR, hfund, htoken, hrecord, happly⟩

/-- The personal statements of an admission leave every balance alone. -/
theorem Admitted.balances {params : BillingBalancePreConsumeParams}
    (h : Admitted cal now db params result db') :
    ∃ dbF dbT, preConsumeFundingTx cal now db params = .ok (result, dbF) ∧
      preConsumeTokenBalanceTx dbF params.tokenId params.amount params.applyToken
        params.tokenUnlimited = .ok dbT ∧
      db' = { dbT with
        requests := db'.requests, events := db'.events, receipts := db'.receipts
        fundingSnapshots := db'.fundingSnapshots } := by
  obtain ⟨dbF, dbT, dbR, hfund, htoken, hrecord, happly⟩ := h.statements
  refine ⟨dbF, dbT, hfund, htoken, ?_⟩
  have hR : dbR = { dbT with fundingSnapshots := dbR.fundingSnapshots } := by
    rcases recordPersonalFundingTx_ok hrecord with ⟨_, rfl⟩ | ⟨_, _, _, _, _, _, hrest⟩
    · rfl
    · exact hrest
  rw [applyPersonalBillingFactTx_rest happly, hR]

/-! ### Reserve -/

variable {params : BillingBalanceReserveParams}

/-- The account a funding source is kept in. -/
def fundingAccount (source : BillingSource) (userId subscriptionId : Int) : Account :=
  match source with
  | .subscription => .subscription subscriptionId
  | _ => .wallet userId

theorem reserveFundingTx_balance (hpos : 0 < params.amount)
    (h : reserveFundingTx db params = .ok db') :
    balance db' = balance db + Pi.single
      (fundingAccount params.billingSource params.userId params.subscriptionId)
      (-params.amount) := by
  unfold reserveFundingTx at h
  cases hs : params.billingSource with
  | subscription =>
    rw [hs] at h
    have hle := balance_subscription_nonpos db params.subscriptionId
    rw [postConsumeUserSubscriptionDeltaTx_balance h, max_eq_left (by omega)]
    rfl
  | wallet =>
    rw [hs] at h
    dsimp only at h
    split at h
    · exact debitWalletTx_balance h
    · exact adjustUserWalletInTx_balance h
  | other name =>
    rw [hs] at h
    cases h

theorem reserveFundingTx_rest (h : reserveFundingTx db params = .ok db') :
    db' = { db with users := db'.users, subscriptions := db'.subscriptions } := by
  unfold reserveFundingTx at h
  split at h
  · rw [postConsumeUserSubscriptionDeltaTx_rest h]
  · split at h
    · rw [debitWalletTx_rest h]
    · rw [adjustUserWalletInTx_rest h]
  · cases h

section

variable (h : reserveBillingBalances db params = .ok db')
include h

/-- A committed reservation is a replay of its fact, or it debited the funding source and,
    when asked to, the token by exactly `amount` and then applied its fact. -/
theorem reserveBillingBalances_ok :
    0 < params.amount ∧
      ((∃ fact receipt, params.personalFact = some fact ∧
          db.receipts.get? fact.operationId = some receipt ∧ receipt.fact = fact ∧ db' = db) ∨
        ∃ db₁ db₂, reserveFundingTx db params = .ok db₁ ∧
          preConsumeTokenBalanceTx db₁ params.tokenId params.amount params.applyToken
            params.tokenUnlimited = .ok db₂ ∧
          applyPersonalBillingFactTx db₂ params.personalFact = .ok db') := by
  unfold reserveBillingBalances at h
  split_ifs at h with hparams
  refine ⟨by omega, ?_⟩
  obtain ⟨replay, hreplay, h⟩ := seq_ok.mp h
  split at h
  · rename_i htrue
    left
    cases h
    subst htrue
    cases hf : params.personalFact with
    | none =>
      rw [hf] at hreplay
      cases hreplay
    | some fact =>
      rw [hf] at hreplay
      rcases personalBillingReplayTx_ok hreplay with ⟨hfalse, _⟩ | ⟨_, receipt, hr, hfact⟩
      · cases hfalse
      · exact ⟨fact, receipt, rfl, hr, hfact, rfl⟩
  · right
    obtain ⟨_, _, h⟩ := seq_ok.mp h
    obtain ⟨db₁, hfund, h⟩ := seq_ok.mp h
    obtain ⟨db₂, htoken, h⟩ := seq_ok.mp h
    exact ⟨db₁, db₂, hfund, htoken, h⟩

section

variable (hnew : ∀ fact, params.personalFact = some fact → db.receipts.get? fact.operationId = none)
include hnew

theorem reserveBillingBalances_balance :
    balance db' = balance db
      + Pi.single (fundingAccount params.billingSource params.userId params.subscriptionId)
        (-params.amount)
      + if params.applyToken then tokenPosting params.tokenId params.amount else 0 := by
  obtain ⟨hpos, ⟨fact, receipt, hfact, hr, _⟩ | ⟨db₁, db₂, hfund, htoken, happly⟩⟩ :=
    reserveBillingBalances_ok h
  · rw [hnew fact hfact] at hr
    cases hr
  · rw [applyPersonalBillingFactTx_balance happly, preConsumeTokenBalanceTx_balance htoken,
      reserveFundingTx_balance hpos hfund]

/-- A reservation that charges its token found the token. -/
theorem reserveBillingBalances_token (hap : params.applyToken = true) :
    0 < params.tokenId ∧ (db.tokens.get? params.tokenId).isSome := by
  obtain ⟨hpos, ⟨fact, receipt, hfact, hr, _⟩ | ⟨db₁, db₂, hfund, htok, _⟩⟩ :=
    reserveBillingBalances_ok h
  · rw [hnew fact hfact] at hr
    cases hr
  have htokens : db₁.tokens = db.tokens := by rw [reserveFundingTx_rest hfund]
  rcases preConsumeTokenBalanceTx_ok htok with ⟨hskip, _⟩ | ⟨_, _, hid, token, ht, _⟩
  · rcases hskip with hf | h0
    · cases hf.symm.trans hap
    · omega
  · rw [htokens] at ht
    exact ⟨hid, by rw [ht]; rfl⟩

end

theorem reserveBillingBalances_rest :
    db' = { db with
      users := db'.users, tokens := db'.tokens, subscriptions := db'.subscriptions
      requests := db'.requests, events := db'.events, receipts := db'.receipts } := by
  obtain ⟨_, ⟨_, _, _, _, _, rfl⟩ | ⟨db₁, db₂, hfund, htoken, happly⟩⟩ :=
    reserveBillingBalances_ok h
  · rfl
  · rw [applyPersonalBillingFactTx_rest happly, preConsumeTokenBalanceTx_rest htoken,
      reserveFundingTx_rest hfund]

end

/-! ### The property and its condition -/

/-- Wallets, subscriptions with their pre-consume records, and tokens are as they were. -/
structure Untouched (db db' : Database) : Prop where
  users : db'.users = db.users
  subscriptions : db'.subscriptions = db.subscriptions
  records : db'.preConsumeRecords = db.preConsumeRecords
  tokens : db'.tokens = db.tokens

/-- The selected funding source was debited by the amount.  On a subscription the usage counts
    from its due reset, and the debit leaves its record. -/
def FundingDebited (cal : Calendar) (now : Int) (db : Database)
    (params : BillingBalancePreConsumeParams) (db' : Database) : Prop :=
  match params.billingSource with
  | .wallet =>
      balance db' (.wallet params.userId) = balance db (.wallet params.userId) - params.amount
  | .subscription =>
      db.preConsumeRecords.get? params.requestId = none ∧
        ∃ record sub plan sub', db'.preConsumeRecords.get? params.requestId = some record ∧
          record.preConsumed = params.amount ∧
          db.subscriptions.get? record.userSubscriptionId = some sub ∧
          db.plans.get? sub.planId = some plan ∧
          db'.subscriptions.get? record.userSubscriptionId = some sub' ∧
          sub'.amountUsed = (resetRow cal sub plan now).amountUsed + params.amount
  | .other _ => False

/-- The token was debited by the amount. -/
def TokenDebited (db : Database) (params : BillingBalancePreConsumeParams) (db' : Database) :
    Prop :=
  balance db' (.tokenRemain params.tokenId) = balance db (.tokenRemain params.tokenId) -
    params.amount ∧
    balance db' (.tokenUsed params.tokenId) = balance db (.tokenUsed params.tokenId) + params.amount

/-- Both balances or neither, and neither for a request of the `admitted` ones. -/
def AdmissionSafe (cal : Calendar) (now : Int) (admitted : List String) (db : Database)
    (params : BillingBalancePreConsumeParams) (db' : Database) : Prop :=
  (Untouched db db' ∨ FundingDebited cal now db params db' ∧
      (params.applyToken = true → TokenDebited db params db')) ∧
    (params.requestId ∈ admitted → Untouched db db')

/-- The condition: there is nothing to debit, or the request is new, or what it debits is only
    the subscription that has its record. -/
def AdmissionSafeWhen (admitted : List String) (db : Database)
    (params : BillingBalancePreConsumeParams) : Prop :=
  Replayed db params.personalFact ∨ params.amount = 0 ∨
    if params.billingSource = .subscription ∧
        (db.preConsumeRecords.get? params.requestId).isSome then params.applyToken = false
    else params.requestId ∉ admitted

/-! ### The parts of an admission -/

theorem preConsumeFundingTx_rest {params : BillingBalancePreConsumeParams}
    (h : preConsumeFundingTx cal now db params = .ok (result, db')) :
    db' = { db with
      users := db'.users, subscriptions := db'.subscriptions
      preConsumeRecords := db'.preConsumeRecords } := by
  rcases preConsumeFundingTx_ok h with ⟨_, _, rfl⟩ | ⟨_, _, _, user, _, _, rfl⟩
    | ⟨_, _, res, _, hsub⟩
  · rfl
  · rfl
  · rcases preConsumeUserSubscription_ok hsub with ⟨_, _, _, _, _, rfl⟩ | ⟨_, hcharged, -⟩
    · rfl
    · rw [hcharged.rest]

section Parts

variable {db db' : Database} {params : BillingBalancePreConsumeParams}
  {result : Option SubscriptionPreConsumeResult}

/-- The token of an admission is charged whenever it is asked for and there is an amount. -/
theorem Admitted.token (h : Admitted cal now db params result db') :
    ((params.applyToken = false ∨ params.amount = 0) ∧ db'.tokens = db.tokens) ∨
      (params.applyToken = true ∧ params.amount ≠ 0 ∧ TokenDebited db params db') := by
  obtain ⟨dbF, dbT, hfund, htoken, hrest⟩ := h.balances
  have htokens : dbF.tokens = db.tokens := by rw [preConsumeFundingTx_rest hfund]
  have hfinal : db'.tokens = dbT.tokens := by rw [hrest]
  rcases preConsumeTokenBalanceTx_ok htoken with ⟨hskip, rfl⟩ | ⟨hap, hne, _, token, ht, rfl⟩
  · exact .inl ⟨hskip, hfinal.trans htokens⟩
  refine .inr ⟨hap, hne, ?_⟩
  -- both columns are read from the token table alone
  have hcol : ∀ f : Token → Int, db'.tokens.column f params.tokenId
      = (chargeToken dbF token params.amount).tokens.column f params.tokenId := by
    intro f
    rw [hfinal]
  have hbase : ∀ f : Token → Int, dbF.tokens.column f params.tokenId =
    db.tokens.column f params.tokenId := by
    intro f
    rw [htokens]
  have hcharge := balance_chargeToken ht params.amount
  constructor
  · have hremain := congrFun hcharge (.tokenRemain params.tokenId)
    simp only [Pi.add_apply, Pi.single_eq_same] at hremain
    rw [Pi.single_eq_of_ne (by simp)] at hremain
    show db'.tokens.column Token.remainQuota params.tokenId
      = db.tokens.column Token.remainQuota params.tokenId - params.amount
    rw [hcol, ← hbase]
    exact hremain.trans (by rw [add_zero]; rfl)
  · have hused := congrFun hcharge (.tokenUsed params.tokenId)
    simp only [Pi.add_apply, Pi.single_eq_same] at hused
    rw [Pi.single_eq_of_ne (by simp)] at hused
    show db'.tokens.column Token.usedQuota params.tokenId
      = db.tokens.column Token.usedQuota params.tokenId + params.amount
    rw [hcol, ← hbase]
    exact hused.trans (by rw [add_zero]; rfl)

/-- The funding source of an admission: nothing to debit, a wallet, a subscription that has the
    request's record, or one that is charged and gets it. -/
theorem Admitted.funding (h : Admitted cal now db params result db') :
    (params.amount ≤ 0 ∧ db'.users = db.users ∧ db'.subscriptions = db.subscriptions ∧
        db'.preConsumeRecords = db.preConsumeRecords) ∨
      (0 < params.amount ∧ params.billingSource = .wallet ∧
        balance db' (.wallet params.userId) = balance db (.wallet params.userId) - params.amount) ∨
      (0 < params.amount ∧ params.billingSource = .subscription ∧
        (db.preConsumeRecords.get? params.requestId).isSome ∧
        db'.users = db.users ∧ db'.subscriptions = db.subscriptions ∧
        db'.preConsumeRecords = db.preConsumeRecords) ∨
      (0 < params.amount ∧ params.billingSource = .subscription ∧
        FundingDebited cal now db params db') := by
  obtain ⟨dbF, dbT, hfund, htoken, hrest⟩ := h.balances
  have hT := preConsumeTokenBalanceTx_rest htoken
  have husers : db'.users = dbF.users := by rw [hrest, hT]
  have hsubs : db'.subscriptions = dbF.subscriptions := by rw [hrest, hT]
  have hrecords : db'.preConsumeRecords = dbF.preConsumeRecords := by rw [hrest, hT]
  rcases preConsumeFundingTx_ok hfund with ⟨h0, _, rfl⟩ | ⟨hpos, hsrc, _, user, hu, _, rfl⟩ |
    ⟨hpos, hsrc, res, _, hsub⟩
  · exact .inl ⟨h0, husers, hsubs, hrecords⟩
  · refine .inr (.inl ⟨hpos, hsrc, ?_⟩)
    have hwallet := congrFun (balance_setWallet hu (user.quota - params.amount))
      (.wallet params.userId)
    rw [Pi.add_apply, Pi.single_eq_same, sub_sub_cancel_left] at hwallet
    show db'.users.column User.quota params.userId = _
    rw [husers]
    exact hwallet.trans (sub_eq_add_neg _ _).symm
  · rcases preConsumeUserSubscription_ok hsub with ⟨record, hr, _, _, _, rfl⟩ | ⟨hnone, hch, -⟩
    · exact .inr (.inr (.inl ⟨hpos, hsrc, by rw [hr]; rfl, husers, hsubs, hrecords⟩))
    refine .inr (.inr (.inr ⟨hpos, hsrc, ?_⟩))
    obtain ⟨sub, plan, hs, hplan, hbefore⟩ := hch.row
    obtain ⟨sub', hs', hafter⟩ := hch.charged
    obtain ⟨record, hset, hid, hsid, hamount, _⟩ := hch.record
    unfold FundingDebited
    rw [hsrc]
    refine ⟨hnone, record, sub, plan, sub', ?_, hamount, ?_, hplan, ?_, ?_⟩
    · rw [hrecords, hset]
      exact Table.get?_set_of_eq _ hid
    · rw [hsid, hs]
    · rw [hsid, hsubs, hs']
    · rw [hafter, hch.result_after, hbefore]

theorem FundingDebited.not_untouched (hpos : 0 < params.amount)
    (h : FundingDebited cal now db params db') : ¬ Untouched db db' := by
  intro hsame
  unfold FundingDebited at h
  split at h
  · have hwallet : balance db' (.wallet params.userId) = balance db (.wallet params.userId) := by
      show db'.users.column User.quota params.userId = _
      rw [hsame.users]
      rfl
    omega
  · obtain ⟨hnone, record, _, _, _, hr, _⟩ := h
    rw [hsame.records, hnone] at hr
    cases hr
  · exact h

theorem TokenDebited.not_untouched (hpos : 0 < params.amount)
    (h : TokenDebited db params db') : ¬ Untouched db db' := by
  intro hsame
  have htoken : balance db' (.tokenRemain params.tokenId) =
    balance db (.tokenRemain params.tokenId) := by
    show db'.tokens.column Token.remainQuota params.tokenId = _
    rw [hsame.tokens]
    rfl
  have hremain := h.1
  omega

end Parts

/-! ### The main result -/

/-- A request without a record debits both balances, so it has to be a new one. -/
private theorem admissionSafe_debited_iff {admitted : List String}
    {params : BillingBalancePreConsumeParams} (hpos : 0 < params.amount)
    (h : Admitted cal now db params result db') (hfund : FundingDebited cal now db params db') :
    AdmissionSafe cal now admitted db params db' ↔ params.requestId ∉ admitted := by
  have htouched := hfund.not_untouched hpos
  constructor
  · rintro ⟨_, honce⟩ hmem
    exact htouched (honce hmem)
  intro hnew
  refine ⟨.inr ⟨hfund, fun hap => ?_⟩, fun hmem => absurd hmem hnew⟩
  rcases h.token with ⟨hskip, _⟩ | ⟨_, _, htoken⟩
  · rcases hskip with hno | h0
    · cases hno.symm.trans hap
    · omega
  · exact htoken

/-- **Exactly when an admission is safe.** -/
theorem preConsumeBillingBalances_safe_iff (cal : Calendar) (now : Int) (admitted : List String)
    (db db' : Database) (params : BillingBalancePreConsumeParams)
    (result : Option SubscriptionPreConsumeResult)
    (hcommit : preConsumeBillingBalances cal now db params = .ok (result, db')) :
    AdmissionSafe cal now admitted db params db' ↔ AdmissionSafeWhen admitted db params := by
  have huntouched : Untouched db db' → AdmissionSafe cal now admitted db params db' :=
    fun hsame => ⟨.inl hsame, fun _ => hsame⟩
  obtain ⟨_, hnonneg, ⟨hreplay, _, rfl⟩ | hrun⟩ := preConsumeBillingBalances_ok hcommit
  · exact ⟨fun _ => .inl hreplay, fun _ => huntouched ⟨rfl, rfl, rfl, rfl⟩⟩
  have hnew : ¬ Replayed db params.personalFact := by
    rintro ⟨fact, receipt, hfact, hr, _⟩
    rw [hrun.unused fact hfact] at hr
    cases hr
  unfold AdmissionSafeWhen
  rcases hrun.funding with ⟨h0, husers, hsubs, hrecords⟩ | ⟨hpos, hsrc, hwallet⟩ |
    ⟨hpos, hsrc, hsome, husers, hsubs, hrecords⟩ | ⟨hpos, hsrc, hfund⟩
  · -- nothing to debit
    have hzero : params.amount = 0 := by omega
    refine ⟨fun _ => .inr (.inl hzero), fun _ => huntouched ⟨husers, hsubs, hrecords, ?_⟩⟩
    rcases hrun.token with ⟨_, htokens⟩ | ⟨_, hne, _⟩
    · exact htokens
    · exact absurd hzero hne
  · have hfund : FundingDebited cal now db params db' := by
      unfold FundingDebited
      rw [hsrc]
      exact hwallet
    rw [admissionSafe_debited_iff hpos hrun hfund]
    simp [hnew, hsrc, show params.amount ≠ 0 by omega]
  · -- the subscription has the record, and only the token is left to debit
    rw [if_pos ⟨hsrc, hsome⟩]
    rcases hrun.token with ⟨hskip, htokens⟩ | ⟨hap, _, htoken⟩
    · have hno : params.applyToken = false := by
        rcases hskip with hno | h0
        · exact hno
        · omega
      exact ⟨fun _ => .inr (.inr hno), fun _ => huntouched ⟨husers, hsubs, hrecords, htokens⟩⟩
    · have htouched := htoken.not_untouched hpos
      constructor
      · rintro ⟨hsame | ⟨hfund, _⟩, _⟩
        · exact absurd hsame htouched
        unfold FundingDebited at hfund
        rw [hsrc] at hfund
        rw [hfund.1] at hsome
        cases hsome
      · rintro (hreplay | h0 | hno)
        · exact absurd hreplay hnew
        · omega
        · cases hno.symm.trans hap
  · have hnone : db.preConsumeRecords.get? params.requestId = none := by
      unfold FundingDebited at hfund
      rw [hsrc] at hfund
      exact hfund.1
    rw [admissionSafe_debited_iff hpos hrun hfund]
    simp [hnew, hnone, show params.amount ≠ 0 by omega]

/-! ### A repeated admission -/

/-- A user with a wallet, a token and a subscription, 1000 on each. -/
def admissionDatabase : Database :=
  { users := .ofList _ [{ id := 1, quota := 1000 }]
    tokens := .ofList _ [{ id := 1, remainQuota := 1000 }]
    plans := .ofList _ [{ id := 1, quotaResetPeriod := .never }]
    subscriptions := .ofList _ [newSubscription] }

/-- The admission of a request for 100. -/
def admissionParams (source : BillingSource) : BillingBalancePreConsumeParams :=
  { requestId := "r", userId := 1, amount := 100, billingSource := source, tokenId := 1
    applyToken := true, tokenUnlimited := false }

theorem admission_safe_iff_first :
    ∃ result db', preConsumeBillingBalances fixedCalendar 0 admissionDatabase
        (admissionParams .subscription) = .ok (result, db') ∧
      (AdmissionSafe fixedCalendar 0 [] admissionDatabase (admissionParams .subscription) db' ↔
        AdmissionSafeWhen [] admissionDatabase (admissionParams .subscription)) :=
  have hcommit : preConsumeBillingBalances fixedCalendar 0 admissionDatabase
      (admissionParams .subscription) = .ok _ := rfl
  ⟨_, _, hcommit, preConsumeBillingBalances_safe_iff _ _ [] _ _ _ _ hcommit⟩

/-- **The repeated admission.** The second admission of one request debits the token again:
    without its subscription, or together with its wallet. -/
theorem admission_replay_debits :
    ∃ result₁ db₁ result₂ db₂, preConsumeBillingBalances fixedCalendar 0 admissionDatabase
        (admissionParams .subscription) = .ok (result₁, db₁) ∧
      preConsumeBillingBalances fixedCalendar 0 db₁ (admissionParams .subscription) =
        .ok (result₂, db₂) ∧
      balance db₂ (.subscription 1) = balance db₁ (.subscription 1) ∧
      balance db₂ (.tokenRemain 1) = balance db₁ (.tokenRemain 1) - 100 ∧
      ¬ AdmissionSafe fixedCalendar 0 ["r"] db₁ (admissionParams .subscription) db₂ ∧
    ∃ result₃ db₃ result₄ db₄, preConsumeBillingBalances fixedCalendar 0 admissionDatabase
        (admissionParams .wallet) = .ok (result₃, db₃) ∧
      preConsumeBillingBalances fixedCalendar 0 db₃ (admissionParams .wallet) = .ok (result₄, db₄) ∧
      balance db₄ (.wallet 1) = balance db₃ (.wallet 1) - 100 ∧
      ¬ AdmissionSafe fixedCalendar 0 ["r"] db₃ (admissionParams .wallet) db₄ := by
  have hunsafe : ∀ db db' : Database, ∀ params : BillingBalancePreConsumeParams,
      params.requestId ∈ ["r"] →
      balance db' (.tokenRemain 1) ≠ balance db (.tokenRemain 1) →
      ¬ AdmissionSafe fixedCalendar 0 ["r"] db params db' := by
    rintro db db' params hmem hne ⟨_, honce⟩
    refine hne ?_
    show db'.tokens.column Token.remainQuota 1 = _
    rw [(honce hmem).tokens]
    rfl
  refine ⟨_, _, _, _, rfl, rfl, ?_, ?_, hunsafe _ _ _ (by decide) ?_,
    _, _, _, _, rfl, rfl, ?_, hunsafe _ _ _ (by decide) ?_⟩
  all_goals decide

end TokenGateway.Billing
