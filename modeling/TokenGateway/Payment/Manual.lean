import TokenGateway.Payment.Order

namespace TokenGateway.Payment

open Base Billing

/-!
# Completion by hand

An administrator may complete an order whose callback was lost.  The user should get what the
callback would have given.

* `ownCompletion` — the callback of the order's provider;
* `SameCredit` — two completions credit and store the same;
* `AgreesWhen` — the condition on the order and the settings;
* `manual_agrees_iff` — completing by hand agrees exactly under this condition.
-/

/-! ### The property and its condition -/

/-- What a callback brings along besides the order. -/
structure CallbackArgs where
  (paymentMethod customerId customerEmail : String := "")

/-- The callback of a provider; the other providers have none. -/
def callback (tradeNo : String) (args : CallbackArgs) : PaymentProvider → Option Attempt
  | .epay => some (.epay tradeNo args.paymentMethod)
  | .stripe => some (.stripe tradeNo args.customerId)
  | .creem => some (.creem tradeNo args.customerEmail)
  | .waffo => some (.waffo tradeNo)
  | .waffoPancake => some (.waffoPancake tradeNo)
  | .balance => none
  | .other _ => none

/-- The two databases after completing `tradeNo` have the same wallet, and the same status,
    credit and evidence on the order. -/
structure SameCredit (tradeNo : String) (userId : Int) (db₁ db₂ : Database) : Prop where
  wallet : balance db₁ (.wallet userId) = balance db₂ (.wallet userId)
  order : ∃ row₁ row₂, db₁.topUps.get? tradeNo = some row₁ ∧ db₂.topUps.get? tradeNo = some row₂ ∧
    row₁.status = row₂.status ∧ row₁.creditedQuota = row₂.creditedQuota ∧
    row₁.moneySnapshot = row₂.moneySnapshot

/-- `ManualCompleteTopUp` from the same state accepts the order and agrees with `db₁`. -/
def ManualAgrees (settings : MoneySettings) (now : Int) (db : Database) (row : TopUp)
    (db₁ : Database) : Prop :=
  ∃ db₂, manualCompleteTopUp settings now db row.tradeNo = .ok db₂ ∧
    SameCredit row.tradeNo row.userId db₁ db₂

/-- `quota` is the amount of the order in units of `QuotaPerUnit`, cut to an integer. -/
def IsAmountQuota (settings : MoneySettings) (row : TopUp) (quota : Int) : Prop :=
  (quota : ℚ) ≤ row.amount * settings.quotaPerUnit.toRat ∧
    row.amount * settings.quotaPerUnit.toRat < quota + 1

/-- The condition on a pending order and the settings. -/
def AgreesWhen (settings : MoneySettings) (row : TopUp) : Prop :=
  match row.paymentProvider with
  | .epay => 0 < row.userId ∧ IsAmountQuota settings row row.creditedQuota ∧
      ∃ snapshot, billingMoneyFact settings row.creditedQuota = .ok snapshot ∧
        row.moneySnapshot = some snapshot
  | .creem => IsAmountQuota settings row row.amount
  | .stripe => False
  | _ => True

/-! ### Completing by hand -/

section Manual

variable {settings : MoneySettings} {now : Int} {db db₁ : Database} {row : TopUp}

/-- On a pending order the function is its credit and nothing else. -/
theorem manualCompleteTopUp_pending (hrow : db.topUps.get? row.tradeNo = some row)
    (hpending : row.status = .pending) (hname : row.tradeNo ≠ "") :
    manualCompleteTopUp settings now db row.tradeNo
      = (do let quota ← topUpQuota settings (manualUnits row)
            creditOrder settings now db row quota) := by
  unfold manualCompleteTopUp
  rw [if_neg hname, hrow]
  simp [hpending]

/-- The credit of a pending order commits when the settings are valid and the wallet takes it. -/
theorem creditOrder_accepts (now : Int) {quota : Int} {snapshot : BillingMoneySnapshot}
    (hpos : 0 < quota) (hfact : billingMoneyFact settings quota = .ok snapshot)
    (htakes : WalletTakes db row.userId quota) :
    ∃ db₂, creditOrder settings now db row quota = .ok db₂ := by
  have hcomplete : completeTopUp settings now row quota = .ok _ :=
    seq_ok.mpr ⟨snapshot, hfact, rfl⟩
  -- the saved order is not read by the wallet update
  have hsaved : ∀ row', WalletTakes (saveTopUp db row') row.userId quota :=
    fun _ => ⟨htakes.known, htakes.bound, htakes.room⟩
  obtain ⟨db₂, hadjust⟩ := (adjustUserWalletInTx_accepts_iff hpos).mpr (hsaved _)
  exact ⟨db₂, seq_ok.mpr ⟨_, hcomplete, hadjust⟩⟩

/-- **Agreement with a completion.** By hand the same is credited and stored exactly when the
    order's units give the credit, and the completion recorded it. -/
theorem manualAgrees_iff {row₁ : TopUp} {credit : Int} (hdone : Completed db row row₁ credit db₁)
    (hname : row.tradeNo ≠ "") :
    ManualAgrees settings now db row db₁ ↔
      topUpQuota settings (manualUnits row) = .ok credit ∧ Recorded settings row₁ credit ∧
        WalletTakes db row.userId credit := by
  have hstored₁ : db₁.topUps.get? row.tradeNo = some row₁ := by
    rw [hdone.get?, if_pos rfl]
  constructor
  · rintro ⟨db₂, hmanual, hsame⟩
    rw [manualCompleteTopUp_pending hdone.stored hdone.pending hname] at hmanual
    obtain ⟨quota, hquota, hcredit⟩ := seq_ok.mp hmanual
    obtain ⟨_, hpos, _⟩ := topUpQuota_ok.mp hquota
    obtain ⟨htakes, row₂, hdone₂, hrecorded⟩ :=
      creditOrder_ok hdone.stored hdone.pending (by omega) hcredit
    -- equal wallets mean equal credits
    have hcredit : quota = credit := by
      have h₁ := hdone.wallet
      have h₂ := hdone₂.wallet
      have hwallet := hsame.wallet
      omega
    obtain ⟨r₁, r₂, hr₁, hr₂, _, hquotas, hsnapshots⟩ := hsame.order
    obtain rfl : row₁ = r₁ := Option.some.inj (hstored₁.symm.trans hr₁)
    obtain rfl : row₂ = r₂ := by
      rw [hdone₂.get?, if_pos rfl] at hr₂
      exact Option.some.inj hr₂
    subst hcredit
    refine ⟨hquota, ⟨hquotas.trans hrecorded.1, ?_⟩, htakes⟩
    obtain ⟨snapshot, hfact, hsnapshot⟩ := hrecorded.2
    exact ⟨snapshot, hfact, hsnapshots.trans hsnapshot⟩
  · rintro ⟨hquota, ⟨hcredited, snapshot, hfact, hsnapshot⟩, htakes⟩
    obtain ⟨_, hpos, _⟩ := topUpQuota_ok.mp hquota
    obtain ⟨db₂, hcredit⟩ := creditOrder_accepts now (by omega) hfact htakes
    obtain ⟨_, row₂, hdone₂, hcredited₂, snapshot₂, hfact₂, hsnapshot₂⟩ :=
      creditOrder_ok hdone.stored hdone.pending (by omega) hcredit
    obtain rfl : snapshot = snapshot₂ := Except.ok.inj (hfact.symm.trans hfact₂)
    refine ⟨db₂, ?_, ?_, row₁, row₂, hstored₁, ?_, ?_, ?_, ?_⟩
    · rw [manualCompleteTopUp_pending hdone.stored hdone.pending hname]
      exact seq_ok.mpr ⟨credit, hquota, hcredit⟩
    · rw [hdone.wallet, hdone₂.wallet]
    · rw [hdone₂.get?, if_pos rfl]
    · rw [hdone.success, hdone₂.success]
    · rw [hcredited, hcredited₂]
    · rw [hsnapshot, hsnapshot₂]

theorem topUpQuota_amount_iff (hunit : 0 < settings.quotaPerUnit.coef) (hamount : 0 < row.amount)
    {quota : Int} (hpos : 1 ≤ quota) (hmax : quota ≤ maxWalletQuota) :
    topUpQuota settings (Decimal.ofInt row.amount) = .ok quota ↔
      IsAmountQuota settings row quota := by
  have hcoef : 0 ≤ ((Decimal.ofInt row.amount).mul settings.quotaPerUnit).coef :=
    Int.mul_nonneg (by exact hamount.le) hunit.le
  rw [topUpQuota_ok, Decimal.truncate_eq_iff hcoef, Decimal.toRat_mul, Decimal.toRat_ofInt]
  exact ⟨fun h => h.1, fun h => ⟨h, hpos, hmax⟩⟩

theorem amount_pos_of_topUpQuota (hunit : 0 < settings.quotaPerUnit.coef) {quota : Int}
    (h : topUpQuota settings (Decimal.ofInt row.amount) = .ok quota) : 0 < row.amount := by
  obtain ⟨htrunc, hpos, _⟩ := topUpQuota_ok.mp h
  have hcoef : 0 < row.amount * settings.quotaPerUnit.coef :=
    Decimal.coef_pos_of_truncate (d := (Decimal.ofInt row.amount).mul settings.quotaPerUnit)
      (by omega)
  exact (pos_iff_pos_of_mul_pos hcoef).mpr hunit

end Manual

/-! ### Agreement with the callbacks -/

/-- The callback of an order is on that order, and is none of the shared functions. -/
theorem callback_some {tradeNo : String} {args : CallbackArgs} {provider : PaymentProvider}
    {a : Attempt} (h : callback tradeNo args provider = some a) :
    a.tradeNo = tradeNo ∧ (∀ t, a ≠ .manual t) ∧ ∀ t p target, a ≠ .updateStatus t p target := by
  unfold callback at h
  split at h
  all_goals cases h
  all_goals exact ⟨rfl, by simp, by simp⟩

/-- **Agreement.** A pending order that the callback of its provider accepts is completed by
    hand with the same credit, status and evidence exactly when `AgreesWhen` holds: always for
    the Waffo providers, never for Stripe. -/
theorem manual_agrees_iff (settings : MoneySettings) (hunit : 0 < settings.quotaPerUnit.coef)
    (now manualNow : Int) (db db₁ : Database) (row : TopUp) (args : CallbackArgs) (a : Attempt)
    (hrow : db.topUps.get? row.tradeNo = some row) (hpending : row.status = .pending)
    (hown : callback row.tradeNo args row.paymentProvider = some a)
    (haccept : attempt settings now db a = .ok db₁) :
    ManualAgrees settings manualNow db row db₁ ↔ AgreesWhen settings row := by
  obtain ⟨htrade, hmanual, hupdate⟩ := callback_some hown
  have hname : row.tradeNo ≠ "" := by
    rw [← htrade]
    intro hempty
    cases a
    all_goals
      subst hempty
      cases haccept
  have hstored : ∀ {other : TopUp}, db.topUps.get? other.tradeNo = some other →
      other.tradeNo = row.tradeNo → other = row := by
    intro other hother hsame
    rw [hsame, hrow] at hother
    exact (Option.some.inj hother).symm
  cases attempt_ok haccept with
  | repeated hother hsuccess =>
    rw [htrade, hrow] at hother
    cases hother
    cases hpending.symm.trans hsuccess
  | failed _ _ ha => exact absurd ha (hupdate _ _ _)
  | @credited other row₁ quota _ ha hquota htakes hdone hrecorded =>
    rcases ha with ha | ⟨hsame, hprovider⟩
    · exact absurd ha (hmanual _)
    obtain rfl := hstored hdone.stored (hsame.trans htrade)
    rw [manualAgrees_iff hdone hname]
    refine iff_of_true ⟨hquota, hrecorded, htakes⟩ ?_
    rcases hprovider with hp | hp
    · simp [AgreesWhen, hp]
    · simp [AgreesWhen, hp]
  | @amount other row₁ email _ ha hprovider hpos htakes hdone hrecorded =>
    obtain rfl := hstored hdone.stored (by rw [← htrade, ha]; rfl)
    have hunits : manualUnits other = Decimal.ofInt other.amount := by
      simp [manualUnits, hprovider]
    have hagrees : AgreesWhen settings other ↔ IsAmountQuota settings other other.amount := by
      simp [AgreesWhen, hprovider]
    rw [manualAgrees_iff hdone hname, hagrees, hunits,
      topUpQuota_amount_iff hunit hpos (by omega) htakes.bound]
    exact ⟨fun h => h.1, fun h => ⟨h, hrecorded, htakes⟩⟩
  | @unrecorded other row₁ quota method _ ha hprovider hquota huser hdone hkept =>
    obtain rfl := hstored hdone.stored (by rw [← htrade, ha]; rfl)
    obtain ⟨_, hlow, hhigh⟩ := topUpQuota_ok.mp hquota
    have hamount := amount_pos_of_topUpQuota hunit hquota
    have hunits : manualUnits other = Decimal.ofInt other.amount := by
      simp [manualUnits, hprovider]
    have hagrees : AgreesWhen settings other ↔ 0 < other.userId ∧
        IsAmountQuota settings other other.creditedQuota ∧
        ∃ snapshot, billingMoneyFact settings other.creditedQuota = .ok snapshot ∧
          other.moneySnapshot = some snapshot := by
      simp [AgreesWhen, hprovider]
    rw [manualAgrees_iff hdone hname, hagrees, hunits]
    unfold Recorded
    rw [hkept.1, hkept.2]
    constructor
    · rintro ⟨_, ⟨hcredited, hevidence⟩, htakes⟩
      rw [hcredited]
      exact ⟨htakes.known, (topUpQuota_amount_iff hunit hamount hlow hhigh).mp hquota, hevidence⟩
    · rintro ⟨hid, hexact, hevidence⟩
      -- two integers below the same number and within one of it are equal
      have hcredited : other.creditedQuota = quota := by
        have hq := (topUpQuota_amount_iff hunit hamount hlow hhigh).mp hquota
        have h₁ : other.creditedQuota < quota + 1 := by
          exact_mod_cast lt_of_le_of_lt hexact.1 hq.2
        have h₂ : quota < other.creditedQuota + 1 := by
          exact_mod_cast lt_of_le_of_lt hq.1 hexact.2
        omega
      rw [hcredited] at hevidence
      exact ⟨hquota, ⟨hcredited, hevidence⟩, hid, hhigh, huser⟩
  | @doubled other row₁ quota customerId _ ha hprovider hquota hdone hrecorded =>
    obtain rfl := hstored hdone.stored (by rw [← htrade, ha]; rfl)
    have hunits : manualUnits other = other.money := by simp [manualUnits, hprovider]
    have hagrees : AgreesWhen settings other ↔ False := by
      simp [AgreesWhen, hprovider]
    rw [manualAgrees_iff hdone hname, hagrees, hunits, hquota]
    refine iff_of_false ?_ not_false
    rintro ⟨hdouble, _⟩
    obtain ⟨_, hlow, _⟩ := topUpQuota_ok.mp hquota
    have hsum : quota = quota + quota := Except.ok.inj hdouble
    omega

/-- By hand a Waffo order gets what its callback gives. -/
theorem waffo_manual_agrees :
    ∃ db₁, attempt usualSettings 10 (orderDatabase .waffo) (.waffo "T1") = .ok db₁ ∧
      (ManualAgrees usualSettings 20 (orderDatabase .waffo) (twoDollars .waffo) db₁ ↔
        AgreesWhen usualSettings (twoDollars .waffo)) :=
  have haccept : attempt usualSettings 10 (orderDatabase .waffo) (.waffo "T1") = .ok _ := rfl
  ⟨_, haccept, manual_agrees_iff usualSettings (by decide) 10 20 _ _ (twoDollars .waffo) {} _
    rfl rfl rfl haccept⟩

/-- **The orders that disagree.** By hand a Creem order of 2 quota is credited a million, a Stripe
    order half of what its callback credits, and an Epay order records a credit that its callback
    leaves at zero. -/
theorem manual_disagrees :
    (∃ db₁, attempt usualSettings 10 (orderDatabase .creem) (.creem "T1" "") = .ok db₁ ∧
      ¬ ManualAgrees usualSettings 20 (orderDatabase .creem) (twoDollars .creem) db₁) ∧
    (∃ db₁, attempt usualSettings 10 (orderDatabase .stripe) (.stripe "T1" "cus") = .ok db₁ ∧
      ¬ ManualAgrees usualSettings 20 (orderDatabase .stripe) (twoDollars .stripe) db₁) ∧
    (∃ db₁, attempt usualSettings 10 (orderDatabase .epay) (.epay "T1" "") = .ok db₁ ∧
      ¬ ManualAgrees usualSettings 20 (orderDatabase .epay) (twoDollars .epay) db₁) := by
  refine ⟨⟨_, rfl, ?_⟩, ⟨_, rfl, ?_⟩, ⟨_, rfl, ?_⟩⟩
  iterate 2
    · rintro ⟨db₂, hmanual, hsame⟩
      cases hmanual
      exact absurd hsame.wallet (by decide)
  · rintro ⟨db₂, hmanual, _, row₁, row₂, hrow₁, hrow₂, _, hcredit, _⟩
    cases hmanual
    cases hrow₁
    cases hrow₂
    exact absurd hcredit (by decide)

end TokenGateway.Payment
