import TokenGateway.Base.Transaction
import TokenGateway.Billing.Database

namespace TokenGateway.Billing

open Base Table

/-!
# Balances: the ledger, the wallet and the token

The ledger of everything a billing transaction moves, and the statements that move the
wallet and the token (`model/wallet_balance.go`, `model/billing_balance.go`).  A statement
takes the database and returns the new one, or the error that rolls the transaction back.

* `Account` / `balance` — every column a billing transaction moves, as one ledger;
* `adjustUserWalletInTx`, `debitWalletTx` — the wallet;
* `preConsumeTokenBalanceTx` — the token;
* `…_balance` — what a committed statement did to the ledger.

Each function comes with what it wrote when it committed (`…_ok`); callers cite these and
never unfold the function.
-/

/-! ### The ledger of accounts -/

/-- The money columns and usage counters of the main database, row by row. -/
inductive Account where
  | wallet (userId : Int)
  | subscription (id : Int)
  | tokenRemain (id : Int)
  | tokenUsed (id : Int)
  | taskQuota (id : Int)
  | midjourneyQuota (id : Int)
  | userUsed (userId : Int)
  | userRequests (userId : Int)
  | channelUsed (id : Int)
  deriving DecidableEq

/-- What an account holds.  A subscription counts as minus its usage, so that a debit
    lowers every funding source alike; a missing row holds nothing. -/
def balance (db : Database) : Account → Int
  | .wallet id => db.users.column User.quota id
  | .subscription id => db.subscriptions.column (fun s => -s.amountUsed) id
  | .tokenRemain id => db.tokens.column Token.remainQuota id
  | .tokenUsed id => db.tokens.column Token.usedQuota id
  | .taskQuota id => db.tasks.column Task.quota id
  | .midjourneyQuota id => db.midjourneys.column Task.quota id
  | .userUsed id => db.users.column User.usedQuota id
  | .userRequests id => db.users.column User.requestCount id
  | .channelUsed id => db.channels.column Channel.usedQuota id

/-! ### Row updates -/

variable (db : Database)

/-- Write the wallet balance of `user`. -/
def setWallet (user : User) (quota : Int) : Database :=
  { db with users := db.users.set { user with quota := quota } }

/-- Write the used amount of a subscription. -/
def setAmountUsed (sub : UserSubscription) (used : Int) (h : 0 ≤ used) : Database :=
  { db with subscriptions :=
      db.subscriptions.set { sub with amountUsed := used, amountUsed_nonneg := h } }

/-- Mark a pre-consume record as refunded. -/
def markRefunded (record : SubscriptionPreConsumeRecord) : Database :=
  { db with preConsumeRecords := db.preConsumeRecords.set { record with status := .refunded } }

/-- Charge `amount` to a token: less remaining, more used. -/
def chargeToken (token : Token) (amount : Int) : Database :=
  { db with tokens := db.tokens.set { token with
      remainQuota := token.remainQuota - amount
      usedQuota := token.usedQuota + amount } }

variable {db} {id : Int}

theorem balance_setWallet {user : User} (h : db.users.get? id = some user) (quota : Int) :
    balance (setWallet db user quota) = balance db + Pi.single (.wallet id)
      (quota - user.quota) := by
  have hid : user.id = id := key_of_get? h
  subst hid
  funext a
  cases a with
  | wallet i =>
    have hcol := column_of_get? h User.quota
    simp [balance, setWallet, column_set, hcol, Pi.single_apply]
  | userUsed i =>
    have hcol := column_of_get? h User.usedQuota
    simp [balance, setWallet, column_set, hcol]
  | userRequests i =>
    have hcol := column_of_get? h User.requestCount
    simp [balance, setWallet, column_set, hcol]
  | _ => simp [balance, setWallet]

theorem balance_setAmountUsed {sub : UserSubscription}
    (h : db.subscriptions.get? id = some sub) (used : Int) (hused : 0 ≤ used) :
    balance (setAmountUsed db sub used hused)
      = balance db + Pi.single (.subscription id) (sub.amountUsed - used) := by
  have hid : sub.id = id := key_of_get? h
  subst hid
  funext a
  cases a with
  | subscription i =>
    have hcol := column_of_get? h (fun s => -s.amountUsed)
    simp only [balance, setAmountUsed, column_set, hcol, Pi.add_apply, Pi.single_apply,
      Account.subscription.injEq]
    congr 2
    ring
  | _ => simp [balance, setAmountUsed]

theorem balance_markRefunded (db : Database) (record : SubscriptionPreConsumeRecord) :
    balance (markRefunded db record) = balance db := by
  funext a
  cases a <;> rfl

theorem balance_chargeToken {token : Token} (h : db.tokens.get? id = some token) (amount : Int) :
    balance (chargeToken db token amount)
      = balance db + Pi.single (.tokenRemain id) (-amount) + Pi.single (.tokenUsed id) amount := by
  have hid : token.id = id := key_of_get? h
  subst hid
  funext a
  cases a with
  | tokenRemain i =>
    have hcol := column_of_get? h Token.remainQuota
    simp [balance, chargeToken, column_set, hcol, Pi.single_apply]
  | tokenUsed i =>
    have hcol := column_of_get? h Token.usedQuota
    simp [balance, chargeToken, column_set, hcol, Pi.single_apply]
  | _ => simp [balance, chargeToken]

/-! ### The wallet -/

variable {db' : Database} {userId delta amount : Int} {err : BillingError}

/-- `ResellerUserKind`: a missing user reads as an ordinary one. -/
def resellerUserKind (db : Database) (userId : Int) : ResellerKind :=
  match db.users.get? userId with
  | some user => user.resellerKind
  | none => .ordinary

def requireOrdinaryUser (db : Database) (userId : Int) : Except BillingError Unit :=
  if resellerUserKind db userId ≠ .ordinary then .error .resellerForbidden else .ok ()

/-- The update of `adjustUserWalletInTx`: the row matched by `guard`, or none. -/
def updateWallet (db : Database) (userId delta : Int) (guard : User → Bool)
    (err : BillingError) : Except BillingError Database :=
  match db.users.get? userId with
  | some user => if guard user then .ok (setWallet db user (user.quota + delta)) else .error err
  | none => .error err

/-- `adjustUserWalletInTx`: the range check and the arithmetic are one conditional update. -/
def adjustUserWalletInTx (db : Database) (userId : Int) (delta : Int) :
    Except BillingError Database := do
  requireOrdinaryUser db userId
  if userId ≤ 0 then
    .error (.text "invalid wallet user id")
  else if delta = 0 then
    .ok db
  else if 0 < delta then
    if maxWalletQuota < delta then
      .error (.walletQuotaOutOfRange "")
    else
      updateWallet db userId delta (fun user => user.quota ≤ maxWalletQuota - delta)
        (.walletQuotaOutOfRange s!" for user {userId}")
  else
    if delta < -maxWalletQuota then
      .error (.walletQuotaOutOfRange "")
    else
      updateWallet db userId delta (fun user => minWalletQuota + -delta ≤ user.quota)
        (.walletQuotaOutOfRange s!" for user {userId}")

theorem updateWallet_ok {guard : User → Bool}
    (h : updateWallet db userId delta guard err = .ok db') :
    ∃ user, db.users.get? userId = some user ∧ guard user = true ∧
      db' = setWallet db user (user.quota + delta) := by
  unfold updateWallet at h
  split at h
  · rename_i user hu
    split at h
    · cases h
      exact ⟨user, hu, by assumption, rfl⟩
    · cases h
  · cases h

/-- A committed wallet adjustment by `delta ≠ 0` found an ordinary user and wrote exactly
    `quota + delta`, inside the wallet range. -/
theorem adjustUserWalletInTx_ok (h : adjustUserWalletInTx db userId delta = .ok db') :
    (delta = 0 ∧ db' = db) ∨
      ∃ user, db.users.get? userId = some user ∧ user.resellerKind = .ordinary ∧
        delta ≠ 0 ∧ delta ≤ maxWalletQuota ∧
        ((0 < delta → user.quota + delta ≤ maxWalletQuota) ∧
          (delta < 0 → minWalletQuota ≤ user.quota + delta)) ∧
        db' = setWallet db user (user.quota + delta) := by
  unfold adjustUserWalletInTx at h
  obtain ⟨_, hord, h⟩ := seq_ok.mp h
  have hkind : resellerUserKind db userId = .ordinary := by
    unfold requireOrdinaryUser at hord
    by_contra hk
    simp [hk] at hord
  have hrow : ∀ user, db.users.get? userId = some user → user.resellerKind = .ordinary := by
    intro user hu
    simpa [resellerUserKind, hu] using hkind
  split at h
  · cases h
  split at h
  · cases h
    exact .inl ⟨by assumption, rfl⟩
  right
  -- The two signs differ in their bound only; both write `quota + delta`.
  split at h
  · split_ifs at h
    obtain ⟨user, hu, hguard, rfl⟩ := updateWallet_ok h
    have hle : user.quota ≤ maxWalletQuota - delta := by simpa using hguard
    exact ⟨user, hu, hrow user hu, by omega, by omega, ⟨by omega, by omega⟩, rfl⟩
  · split_ifs at h
    obtain ⟨user, hu, hguard, rfl⟩ := updateWallet_ok h
    have hle : minWalletQuota + -delta ≤ user.quota := by simpa using hguard
    exact ⟨user, hu, hrow user hu, by omega, by omega, ⟨by omega, by omega⟩, rfl⟩

/-- The conditional debit `UPDATE … SET quota = quota - amount WHERE quota >= amount`. -/
def debitWalletTx (db : Database) (userId : Int) (amount : Int) (err : BillingError) :
    Except BillingError Database :=
  match db.users.get? userId with
  | some user =>
      if amount ≤ user.quota then .ok (setWallet db user (user.quota - amount)) else .error err
  | none => .error err

theorem debitWalletTx_ok (h : debitWalletTx db userId amount err = .ok db') :
    ∃ user, db.users.get? userId = some user ∧ amount ≤ user.quota ∧
      db' = setWallet db user (user.quota - amount) := by
  unfold debitWalletTx at h
  split at h
  · rename_i user hu
    split at h
    · cases h
      exact ⟨user, hu, by assumption, rfl⟩
    · cases h
  · cases h

/-! ### The token -/

/-- `preConsumeTokenBalanceTx`: a limited token is charged only what remains on it. -/
def preConsumeTokenBalanceTx (db : Database) (tokenId amount : Int) (apply unlimited : Bool) :
    Except BillingError Database :=
  if !apply || amount = 0 then
    .ok db
  else if tokenId ≤ 0 then
    .error (.text "invalid billing token id")
  else match db.tokens.get? tokenId with
    | some token =>
        if unlimited || amount ≤ token.remainQuota then
          .ok (chargeToken db token amount)
        else .error (.billingTokenQuotaInsufficient s!" for token {tokenId}")
    | none => .error (.billingTokenQuotaInsufficient s!" for token {tokenId}")

variable {tokenId : Int} {apply unlimited : Bool}

/-- A committed token pre-consume charged exactly `amount`, or had nothing to charge. -/
theorem preConsumeTokenBalanceTx_ok
    (h : preConsumeTokenBalanceTx db tokenId amount apply unlimited = .ok db') :
    ((apply = false ∨ amount = 0) ∧ db' = db) ∨
      (apply = true ∧ amount ≠ 0 ∧ 0 < tokenId ∧
        ∃ token, db.tokens.get? tokenId = some token ∧ db' = chargeToken db token amount) := by
  unfold preConsumeTokenBalanceTx at h
  split at h
  · rename_i hskip
    cases h
    left
    exact ⟨by simpa using hskip, rfl⟩
  · rename_i hskip
    have hcharge : apply = true ∧ amount ≠ 0 := by simpa using hskip
    right
    split_ifs at h with hid
    split at h
    · rename_i token ht
      split at h
      · cases h
        exact ⟨hcharge.1, hcharge.2, by omega, token, ht, rfl⟩
      · cases h
    · cases h

/-! ### Tables a statement may change -/

theorem adjustUserWalletInTx_rest (h : adjustUserWalletInTx db userId delta = .ok db') :
    db' = { db with users := db'.users } := by
  rcases adjustUserWalletInTx_ok h with ⟨_, rfl⟩ | ⟨user, _, _, _, _, _, rfl⟩ <;> rfl

theorem debitWalletTx_rest (h : debitWalletTx db userId amount err = .ok db') :
    db' = { db with users := db'.users } := by
  obtain ⟨user, _, _, rfl⟩ := debitWalletTx_ok h
  rfl

theorem preConsumeTokenBalanceTx_rest
    (h : preConsumeTokenBalanceTx db tokenId amount apply unlimited = .ok db') :
    db' = { db with tokens := db'.tokens } := by
  rcases preConsumeTokenBalanceTx_ok h with ⟨_, rfl⟩ | ⟨_, _, _, token, _, rfl⟩ <;> rfl

/-! ### Postings: what a committed statement did to the ledger -/

/-- The two token columns of a charge. -/
def tokenPosting (tokenId amount : Int) : Account → Int :=
  Pi.single (.tokenRemain tokenId) (-amount) + Pi.single (.tokenUsed tokenId) amount

@[simp] theorem tokenPosting_zero (tokenId : Int) : tokenPosting tokenId 0 = 0 := by
  simp [tokenPosting]

theorem adjustUserWalletInTx_balance (h : adjustUserWalletInTx db userId delta = .ok db') :
    balance db' = balance db + Pi.single (.wallet userId) delta := by
  rcases adjustUserWalletInTx_ok h with ⟨rfl, rfl⟩ | ⟨user, hu, _, _, _, _, rfl⟩
  · simp
  · rw [balance_setWallet hu, add_sub_cancel_left]

theorem debitWalletTx_balance (h : debitWalletTx db userId amount err = .ok db') :
    balance db' = balance db + Pi.single (.wallet userId) (-amount) := by
  obtain ⟨user, hu, _, rfl⟩ := debitWalletTx_ok h
  rw [balance_setWallet hu, sub_sub_cancel_left]

theorem preConsumeTokenBalanceTx_balance
    (h : preConsumeTokenBalanceTx db tokenId amount apply unlimited = .ok db') :
    balance db' = balance db + if apply then tokenPosting tokenId amount else 0 := by
  rcases preConsumeTokenBalanceTx_ok h with ⟨h0, rfl⟩ | ⟨rfl, _, _, token, ht, rfl⟩
  · rcases h0 with rfl | rfl <;> simp
  · rw [balance_chargeToken ht, if_pos rfl, tokenPosting, add_assoc]

end TokenGateway.Billing
