import TokenGateway.Payment.TopUp

namespace TokenGateway.Payment

open Base Billing Table

/-!
# What the completions of an order do

* `Completed` — an order was marked successful, and its user's wallet credited;
* `AttemptOutcome` — the ways an attempt on an order commits;
* `attempt_ok` — the spec of all seven functions.
-/

/-! ### The helpers -/

variable {settings : MoneySettings} {db : Database} {quota : Int}

theorem topUpQuota_ok {units : Decimal} :
    topUpQuota settings units = .ok quota ↔
      (units.mul settings.quotaPerUnit).truncate = quota ∧ 1 ≤ quota ∧ quota ≤ maxWalletQuota := by
  have hrange : ¬ maxWalletQuota < 1 := by decide
  unfold topUpQuota quotaBalanceFromDecimalStrict
  rw [if_neg hrange]
  dsimp only
  constructor
  · intro h
    split_ifs at h with hin
    cases h
    exact ⟨rfl, by omega, by omega⟩
  · rintro ⟨rfl, hlow, hhigh⟩
    rw [if_neg (by omega)]

variable {db' : Database} {userId credit : Int} {customer : Option String}

/-- A committed credit found an ordinary user with room for it. -/
theorem creditTopUpQuota_ok (h : creditTopUpQuota db userId credit customer = .ok db') :
    0 < credit ∧ credit ≤ maxWalletQuota ∧ ∃ user, db.users.get? userId = some user ∧
      user.resellerKind = .ordinary ∧ user.quota ≤ maxWalletQuota - credit ∧
      db' = { db with users := db.users.set { user with
        quota := user.quota + credit
        stripeCustomer := customer.getD user.stripeCustomer } } := by
  unfold creditTopUpQuota at h
  obtain ⟨_, hord, h⟩ := seq_ok.mp h
  split_ifs at h with hvalid
  split at h
  · cases h
  rename_i user huser
  split at h
  · rename_i hroom
    cases h
    refine ⟨by omega, by omega, user, huser, ?_, hroom, rfl⟩
    unfold requireOrdinaryUser resellerUserKind at hord
    rw [huser] at hord
    by_contra hkind
    simp [hkind] at hord
  · cases h

/-- A user row written with another quota posts the difference to the wallet. -/
theorem balance_setUser {user user' : User} (huser : db.users.get? user.id = some user)
    (hid : user'.id = user.id) :
    balance { db with users := db.users.set user' } (.wallet user.id)
      = balance db (.wallet user.id) + (user'.quota - user.quota) := by
  have hbefore := column_of_get? huser User.quota
  have hafter : (db.users.set user').get? user.id = some user' := get?_set_of_eq _ hid
  show (db.users.set user').column User.quota user.id = db.users.column User.quota user.id + _
  rw [column_of_get? hafter]
  omega

theorem creditTopUpQuota_wallet (h : creditTopUpQuota db userId credit customer = .ok db') :
    balance db' (.wallet userId) = balance db (.wallet userId) + credit := by
  obtain ⟨_, _, user, huser, _, _, rfl⟩ := creditTopUpQuota_ok h
  obtain rfl : user.id = userId := key_of_get? huser
  refine (balance_setUser huser (by rfl)).trans ?_
  dsimp only
  omega

/-- Whatever a callback writes to a user besides the quota, the wallet stays. -/
theorem updateStripeCustomer_wallet (db : Database) (userId : Int) (customerId : String) :
    balance (updateStripeCustomer db userId customerId)
      (.wallet userId) = balance db (.wallet userId) := by
  unfold updateStripeCustomer
  split
  · rename_i user huser
    obtain rfl : user.id = userId := key_of_get? huser
    refine (balance_setUser huser (by rfl)).trans ?_
    dsimp only
    omega
  · rfl

/-- The wallet of `userId` takes a credit through `adjustUserWalletInTx`. -/
structure WalletTakes (db : Database) (userId credit : Int) : Prop where
  known : 0 < userId
  bound : credit ≤ maxWalletQuota
  room : ∃ user, db.users.get? userId = some user ∧ user.resellerKind = .ordinary ∧
    user.quota ≤ maxWalletQuota - credit

/-- A positive adjustment commits exactly when the wallet takes it. -/
theorem adjustUserWalletInTx_accepts_iff (hpos : 0 < credit) :
    (∃ db', adjustUserWalletInTx db userId credit = .ok db') ↔ WalletTakes db userId credit := by
  constructor
  · rintro ⟨db', h⟩
    rcases adjustUserWalletInTx_ok h with ⟨hzero, _⟩ | ⟨user, huser, hkind, _, hmax, hroom, _⟩
    · omega
    refine ⟨?_, hmax, user, huser, hkind, by have := hroom.1 hpos; omega⟩
    obtain ⟨_, _, h⟩ := seq_ok.mp h
    by_contra hid
    rw [if_pos (by omega)] at h
    cases h
  · rintro ⟨hid, hmax, user, huser, hkind, hroom⟩
    have hordinary : requireOrdinaryUser db userId = .ok () := by
      unfold requireOrdinaryUser resellerUserKind
      simp [huser, hkind]
    refine ⟨setWallet db user (user.quota + credit), ?_⟩
    refine seq_ok.mpr ⟨(), hordinary, ?_⟩
    rw [if_neg (by omega), if_neg (by omega), if_pos hpos, if_neg (by omega)]
    unfold updateWallet
    simp [huser, hroom]

variable {now : Int}

theorem completeTopUp_ok {topUp topUp' : TopUp}
    (h : completeTopUp settings now topUp quota = .ok topUp') :
    ∃ snapshot, billingMoneyFact settings quota = .ok snapshot ∧
      topUp' = { topUp with
        completeTime := now, status := .success, creditedQuota := quota
        moneySnapshot := some snapshot } := by
  obtain ⟨snapshot, hfact, h⟩ := seq_ok.mp h
  cases h
  exact ⟨snapshot, hfact, rfl⟩

/-! ### Completed orders -/

/-- The pending order `row` became the successful `row'`, and its user's wallet grew by
    `credit`. -/
structure Completed (db : Database) (row row' : TopUp) (credit : Int) (db' : Database) : Prop where
  stored : db.topUps.get? row.tradeNo = some row
  pending : row.status = .pending
  topUps : db'.topUps = db.topUps.set row'
  tradeNo : row'.tradeNo = row.tradeNo
  userId : row'.userId = row.userId
  success : row'.status = .success
  wallet : balance db' (.wallet row.userId) = balance db (.wallet row.userId) + credit

/-- The row records `quota` as its credit, with the evidence for it. -/
def Recorded (settings : MoneySettings) (row : TopUp) (quota : Int) : Prop :=
  row.creditedQuota = quota ∧ ∃ snapshot, billingMoneyFact settings quota = .ok snapshot ∧
    row.moneySnapshot = some snapshot

theorem creditOrder_ok {row : TopUp}
    (hstored : db.topUps.get? row.tradeNo = some row) (hpending : row.status = .pending)
    (hpos : 0 < quota) (h : creditOrder settings now db row quota = .ok db') :
    WalletTakes db row.userId quota ∧ ∃ row', Completed db row row' quota db' ∧
      Recorded settings row' quota := by
  obtain ⟨row', hcomplete, h⟩ := seq_ok.mp h
  obtain ⟨snapshot, hfact, hrow'⟩ := completeTopUp_ok hcomplete
  have huser : row'.userId = row.userId := by rw [hrow']
  have htakes := (adjustUserWalletInTx_accepts_iff hpos).mp ⟨db', h⟩
  rw [huser] at htakes
  refine ⟨⟨htakes.known, htakes.bound, htakes.room⟩, row',
    ⟨hstored, hpending, ?_, by rw [hrow'], huser, by rw [hrow'], ?_⟩,
    by rw [hrow'], snapshot, hfact, by rw [hrow']⟩
  · rw [adjustUserWalletInTx_rest h]
    rfl
  · rw [adjustUserWalletInTx_balance h, huser, Pi.add_apply, Pi.single_eq_same]
    rfl

theorem reportFailure_ok {α : Type} {result : Except BillingError α} {a : α} :
    reportFailure result = .ok a ↔ result = .ok a := by
  cases result with
  | error e => simp [reportFailure]
  | ok b => rfl

/-! ### Attempts -/

/-- The attempts to complete or fail an order. -/
inductive Attempt where
  | epay (tradeNo actualPaymentMethod : String)
  | stripe (referenceId customerId : String)
  | creem (referenceId customerEmail : String)
  | waffo (tradeNo : String)
  | waffoPancake (tradeNo : String)
  | manual (tradeNo : String)
  | updateStatus (tradeNo : String) (expectedPaymentProvider : Option PaymentProvider)
      (targetStatus : TopUpStatus)
  deriving DecidableEq

def Attempt.tradeNo : Attempt → String
  | .epay tradeNo _ => tradeNo
  | .stripe referenceId _ => referenceId
  | .creem referenceId _ => referenceId
  | .waffo tradeNo => tradeNo
  | .waffoPancake tradeNo => tradeNo
  | .manual tradeNo => tradeNo
  | .updateStatus tradeNo _ _ => tradeNo

/-- An attempt as one transaction. -/
def attempt (settings : MoneySettings) (now : Int) (db : Database) :
    Attempt → Except BillingError Database
  | .epay tradeNo method => (rechargeEpay settings now db tradeNo method).map Prod.snd
  | .stripe referenceId customerId => recharge settings now db referenceId customerId
  | .creem referenceId email => rechargeCreem settings now db referenceId email
  | .waffo tradeNo => rechargeWaffo settings now db tradeNo
  | .waffoPancake tradeNo => rechargeWaffoPancake settings now db tradeNo
  | .manual tradeNo => manualCompleteTopUp settings now db tradeNo
  | .updateStatus tradeNo provider target => updatePendingTopUpStatus db tradeNo provider target

/-- How an attempt commits: the order was completed before; another status was set; its quota was
    credited and recorded (the amount itself, for Creem); the callback of Epay records nothing, and
    that of Stripe credits twice. -/
inductive AttemptOutcome (settings : MoneySettings) (db : Database) (a : Attempt) :
    Database → Prop
  | repeated {row : TopUp} (hstored : db.topUps.get? a.tradeNo = some row)
      (hsuccess : row.status = .success) : AttemptOutcome settings db a db
  | failed {row : TopUp} {provider : Option PaymentProvider} {target : TopUpStatus}
      (hstored : db.topUps.get? row.tradeNo = some row) (hpending : row.status = .pending)
      (ha : a = .updateStatus row.tradeNo provider target) :
      AttemptOutcome settings db a (saveTopUp db { row with status := target })
  | credited {row row' : TopUp} {quota : Int} {db' : Database}
      (ha : a = .manual row.tradeNo ∨ row.tradeNo = a.tradeNo ∧
        (row.paymentProvider = .waffo ∨ row.paymentProvider = .waffoPancake))
      (hquota : topUpQuota settings (manualUnits row) = .ok quota)
      (htakes : WalletTakes db row.userId quota)
      (hdone : Completed db row row' quota db') (hrow : Recorded settings row' quota) :
      AttemptOutcome settings db a db'
  | amount {row row' : TopUp} {email : String} {db' : Database}
      (ha : a = .creem row.tradeNo email) (hprovider : row.paymentProvider = .creem)
      (hpos : 0 < row.amount) (htakes : WalletTakes db row.userId row.amount)
      (hdone : Completed db row row' row.amount db')
      (hrow : Recorded settings row' row.amount) : AttemptOutcome settings db a db'
  | unrecorded {row row' : TopUp} {quota : Int} {method : String} {db' : Database}
      (ha : a = .epay row.tradeNo method) (hprovider : row.paymentProvider = .epay)
      (hquota : topUpQuota settings (Decimal.ofInt row.amount) = .ok quota)
      (huser : ∃ user, db.users.get? row.userId = some user ∧ user.resellerKind = .ordinary ∧
        user.quota ≤ maxWalletQuota - quota)
      (hdone : Completed db row row' quota db')
      (hrow : row'.creditedQuota = row.creditedQuota ∧ row'.moneySnapshot = row.moneySnapshot) :
      AttemptOutcome settings db a db'
  | doubled {row row' : TopUp} {quota : Int} {customerId : String} {db' : Database}
      (ha : a = .stripe row.tradeNo customerId) (hprovider : row.paymentProvider = .stripe)
      (hquota : topUpQuota settings row.money = .ok quota)
      (hdone : Completed db row row' (quota + quota) db') (hrow : Recorded settings row' quota) :
      AttemptOutcome settings db a db'

/-! ### The seven functions -/

variable {a : Attempt} {tradeNo referenceId : String}

section Specs

variable {settings : MoneySettings} {db : Database}

theorem rechargeEpay_outcome {method : String} {done : Bool}
    (h : rechargeEpay settings now db tradeNo method = .ok (done, db')) :
    AttemptOutcome settings db (.epay tradeNo method) db' := by
  unfold rechargeEpay at h
  split at h
  · cases h
  split at h
  · cases h
  rename_i row hrow
  obtain rfl : row.tradeNo = tradeNo := key_of_get? hrow
  split at h
  · cases h
  rename_i hprovider
  split at h
  · cases h
    exact .repeated hrow (by assumption)
  split at h
  · cases h
  rename_i hpending
  dsimp only at h
  split at h
  · cases h
  rename_i quota hquota
  obtain ⟨db₁, hcredit, h⟩ := seq_ok.mp h
  cases h
  -- the order is saved with its old credit, then the wallet grows
  have hdone : Completed db row
      { row with
        paymentMethod := if method ≠ "" then method else row.paymentMethod
        completeTime := now
        status := .success } quota db' := by
    refine ⟨hrow, not_not.mp hpending, ?_, rfl, rfl, rfl, ?_⟩
    · obtain ⟨_, _, user, _, _, _, rfl⟩ := creditTopUpQuota_ok hcredit
      rfl
    · rw [creditTopUpQuota_wallet hcredit]
      rfl
  obtain ⟨_, _, user, huser, hkind, hroom, _⟩ := creditTopUpQuota_ok hcredit
  exact .unrecorded rfl (not_not.mp hprovider) hquota ⟨user, huser, hkind, hroom⟩ hdone ⟨rfl, rfl⟩

theorem recharge_outcome {customerId : String}
    (h : recharge settings now db referenceId customerId = .ok db') :
    AttemptOutcome settings db (.stripe referenceId customerId) db' := by
  unfold recharge at h
  split at h
  · cases h
  rw [reportFailure_ok] at h
  split at h
  · cases h
  rename_i row hrow
  obtain rfl : row.tradeNo = referenceId := key_of_get? hrow
  split_ifs at h with hprovider hpending
  obtain ⟨quota, hquota, h⟩ := seq_ok.mp h
  obtain ⟨db₁, hadjust, h⟩ := seq_ok.mp h
  obtain ⟨row', hcomplete, hcredit⟩ := seq_ok.mp h
  obtain ⟨snapshot, hfact, hrow'⟩ := completeTopUp_ok hcomplete
  have huser : row'.userId = row.userId := by rw [hrow']
  refine .doubled rfl (not_not.mp hprovider) hquota
    ⟨hrow, not_not.mp hpending, ?_, by rw [hrow'], huser, by rw [hrow'], ?_⟩
    ⟨by rw [hrow'], snapshot, hfact, by rw [hrow']⟩
  · obtain ⟨_, _, user, _, _, _, rfl⟩ := creditTopUpQuota_ok hcredit
    have htopUps : (updateStripeCustomer db₁ row.userId customerId).topUps = db.topUps := by
      unfold updateStripeCustomer
      split
      all_goals
        rw [adjustUserWalletInTx_rest hadjust]
    show (updateStripeCustomer db₁ row.userId customerId).topUps.set row' = _
    rw [htopUps]
  · -- both helpers credit the quota
    have hsecond := creditTopUpQuota_wallet hcredit
    rw [huser] at hsecond
    have hsave : balance (saveTopUp (updateStripeCustomer db₁ row.userId customerId) row')
        (.wallet row.userId) = balance db₁ (.wallet row.userId) :=
      updateStripeCustomer_wallet db₁ row.userId customerId
    rw [hsecond, hsave, adjustUserWalletInTx_balance hadjust, Pi.add_apply, Pi.single_eq_same,
      add_assoc]

theorem rechargeCreem_outcome {email : String}
    (h : rechargeCreem settings now db referenceId email = .ok db') :
    AttemptOutcome settings db (.creem referenceId email) db' := by
  unfold rechargeCreem at h
  split at h
  · cases h
  rw [reportFailure_ok] at h
  split at h
  · cases h
  rename_i row hrow
  obtain rfl : row.tradeNo = referenceId := key_of_get? hrow
  split at h
  · cases h
  rename_i hprovider
  split at h
  · cases h
  rename_i hpending
  dsimp only at h
  split at h
  · cases h
  have hpos : 0 < row.amount := by omega
  obtain ⟨db₁, hcredit, h⟩ := seq_ok.mp h
  obtain ⟨htakes, row', hdone, hrecorded⟩ := creditOrder_ok hrow (not_not.mp hpending) hpos hcredit
  refine .amount rfl (not_not.mp hprovider) hpos htakes ?_ hrecorded
  split at h
  · cases h
    exact hdone
  split at h
  · cases h
  rename_i user huser
  split at h
  · -- the email is no money
    cases h
    refine { hdone with topUps := hdone.topUps, wallet := ?_ }
    obtain hid : user.id = row.userId := key_of_get? huser
    rw [← hdone.wallet, ← hid]
    refine (balance_setUser (hid ▸ huser) (by rfl)).trans ?_
    dsimp only
    omega
  · cases h
    exact hdone

theorem rechargeWaffoOrder_outcome {provider : PaymentProvider}
    (hwaffo : provider = .waffo ∨ provider = .waffoPancake)
    (h : rechargeWaffoOrder provider settings now db a.tradeNo = .ok db') :
    AttemptOutcome settings db a db' := by
  unfold rechargeWaffoOrder at h
  split at h
  · cases h
  rw [reportFailure_ok] at h
  split at h
  · cases h
  rename_i row hrow
  have htrade : row.tradeNo = a.tradeNo := key_of_get? hrow
  split at h
  · cases h
  rename_i hprovider
  obtain rfl : row.paymentProvider = provider := not_not.mp hprovider
  split at h
  · cases h
    exact .repeated hrow (by assumption)
  split_ifs at h with hpending
  obtain ⟨quota, hquota, hcredit⟩ := seq_ok.mp h
  obtain ⟨_, hpos, _⟩ := topUpQuota_ok.mp hquota
  obtain ⟨htakes, row', hdone, hrecorded⟩ :=
    creditOrder_ok (htrade ▸ hrow) (not_not.mp hpending) (by omega) hcredit
  -- neither of the two providers is Stripe, so the units are the amount
  have hunits : manualUnits row = Decimal.ofInt row.amount := by
    rcases hwaffo with hw | hw
    · simp [manualUnits, hw]
    · simp [manualUnits, hw]
  exact .credited (.inr ⟨htrade, hwaffo⟩) (hunits ▸ hquota) htakes hdone hrecorded

theorem manualCompleteTopUp_outcome (h : manualCompleteTopUp settings now db tradeNo = .ok db') :
    AttemptOutcome settings db (.manual tradeNo) db' := by
  unfold manualCompleteTopUp at h
  split at h
  · cases h
  split at h
  · cases h
  rename_i row hrow
  obtain rfl : row.tradeNo = tradeNo := key_of_get? hrow
  split at h
  · cases h
    exact .repeated hrow (by assumption)
  split_ifs at h with hpending
  obtain ⟨quota, hquota, hcredit⟩ := seq_ok.mp h
  obtain ⟨_, hpos, _⟩ := topUpQuota_ok.mp hquota
  obtain ⟨htakes, row', hdone, hrecorded⟩ :=
    creditOrder_ok hrow (not_not.mp hpending) (by omega) hcredit
  exact .credited (.inl rfl) hquota htakes hdone hrecorded

theorem updatePendingTopUpStatus_outcome {provider : Option PaymentProvider}
    {target : TopUpStatus} (h : updatePendingTopUpStatus db tradeNo provider target = .ok db') :
    AttemptOutcome settings db (.updateStatus tradeNo provider target) db' := by
  unfold updatePendingTopUpStatus at h
  split at h
  · cases h
  split at h
  · cases h
  rename_i row hrow
  obtain rfl : row.tradeNo = tradeNo := key_of_get? hrow
  split at h
  · cases h
  split_ifs at h with hpending
  cases h
  exact .failed hrow (not_not.mp hpending) rfl

/-- **The spec of all attempts.** -/
theorem attempt_ok (h : attempt settings now db a = .ok db') :
    AttemptOutcome settings db a db' := by
  cases a with
  | epay tradeNo method =>
    simp only [attempt] at h
    cases hepay : rechargeEpay settings now db tradeNo method with
    | error e =>
      rw [hepay] at h
      cases h
    | ok out =>
      rw [hepay] at h
      cases h
      exact rechargeEpay_outcome hepay
  | stripe referenceId customerId => exact recharge_outcome h
  | creem referenceId email => exact rechargeCreem_outcome h
  | waffo tradeNo => exact rechargeWaffoOrder_outcome (.inl rfl) h
  | waffoPancake tradeNo => exact rechargeWaffoOrder_outcome (.inr rfl) h
  | manual tradeNo => exact manualCompleteTopUp_outcome h
  | updateStatus tradeNo provider target => exact updatePendingTopUpStatus_outcome h

end Specs

end TokenGateway.Payment
