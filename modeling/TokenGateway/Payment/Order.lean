import TokenGateway.Payment.Credit

namespace TokenGateway.Payment

open Base Billing

/-!
# An order over all attempts on it

Callbacks and administrators attempt to complete an order in any order and number.  Its user's
wallet should grow by what the order records, once.

* `orderStep` — an attempt, with the growth of the wallet on this order;
* `OrderExact` — the growth is the order's `CreditedQuota` if it succeeded, and nothing if not;
* `CompletionSafe` — the condition on an attempt;
* `order_credited_once` — attempts that all meet the condition keep the order exact.

The condition leaves out the two callbacks that do not record what they credit
(`callbacks_inexact`).
-/

/-! ### Attempts on an order -/

/-- An attempt under the settings and at the time it is made. -/
structure OrderStep where
  settings : MoneySettings
  now : Int
  attempt : Attempt

/-- A database, and by how much the wallet of `userId` grew in the attempts on one order. -/
structure AuditedOrder where
  db : Database
  credited : Int := 0

/-- An attempt on any order, which commits or rolls back; attempts on `tradeNo` are audited. -/
def orderStep (tradeNo : String) (userId : Int) (s : AuditedOrder) (step : OrderStep) :
    AuditedOrder :=
  let db' := commit s.db (attempt step.settings step.now s.db step.attempt)
  { db := db'
    credited := s.credited + if step.attempt.tradeNo = tradeNo
      then balance db' (.wallet userId) - balance s.db (.wallet userId) else 0 }

/-- The credit of an order in its present status. -/
def TopUp.due (row : TopUp) : Int := if row.status = .success then row.creditedQuota else 0

/-- The wallet grew by what the stored order records, which is positive for a success. -/
def OrderExact (tradeNo : String) (s : AuditedOrder) : Prop :=
  ∃ row, s.db.topUps.get? tradeNo = some row ∧ s.credited = TopUp.due row ∧
    (row.status = .success → 0 < row.creditedQuota)

/-- The condition on an attempt on a pending order: it is no callback of Stripe for a Stripe
    order; a callback of Epay finds the credit stored that it gives; and a status update is for
    a failure, as its callers promise. -/
def CompletionSafe (tradeNo : String) (s : AuditedOrder) (step : OrderStep) : Prop :=
  ∀ row, step.attempt.tradeNo = tradeNo → s.db.topUps.get? tradeNo = some row →
    row.status = .pending →
    match step.attempt with
    | .stripe _ _ => row.paymentProvider ≠ .stripe
    | .epay _ _ => row.paymentProvider = .epay → ∀ quota,
        topUpQuota step.settings (Decimal.ofInt row.amount) = .ok quota →
        row.creditedQuota = quota
    | .updateStatus _ _ target => target ≠ .success
    | _ => True

/-! ### The invariant -/

/-- The order is exact, and still the order of `userId`. -/
def OrderInv (tradeNo : String) (userId : Int) (s : AuditedOrder) : Prop :=
  ∃ row, s.db.topUps.get? tradeNo = some row ∧ row.userId = userId ∧
    s.credited = TopUp.due row ∧ (row.status = .success → 0 < row.creditedQuota)

variable {db' : Database} {row row' : TopUp} {credit : Int}

/-- The order of an attempt that completed is the one it names, and any other order stays. -/
theorem Completed.get? {db : Database} (h : Completed db row row' credit db') (tradeNo : String) :
    db'.topUps.get? tradeNo = if row.tradeNo = tradeNo then some row'
      else db.topUps.get? tradeNo := by
  rw [h.topUps, Table.get?_set, h.tradeNo]

variable {tradeNo : String} {userId : Int} {s : AuditedOrder}

/-- A completion that credits what the new row records keeps the order exact. -/
theorem orderInv_completed {name : String} (hname : name = row.tradeNo)
    (hinv : OrderInv tradeNo userId s)
    (hdone : Completed s.db row row' credit db') (hrecorded : row.tradeNo = tradeNo →
      row'.creditedQuota = credit ∧ 0 < credit) :
    OrderInv tradeNo userId
      { db := db'
        credited := s.credited + if name = tradeNo
          then balance db' (.wallet userId) - balance s.db (.wallet userId) else 0 } := by
  subst hname
  obtain ⟨old, hold, huser, hcredited, hpos⟩ := hinv
  by_cases htrade : row.tradeNo = tradeNo
  · -- the old row is the pending one, so nothing was credited before
    obtain ⟨hrow', hcredit⟩ := hrecorded htrade
    obtain rfl : old = row := Option.some.inj (hold.symm.trans (htrade ▸ hdone.stored))
    have hbefore : s.credited = 0 := by
      rw [hcredited]
      simp [TopUp.due, hdone.pending]
    refine ⟨row', ?_, hdone.userId.trans huser, ?_, fun _ => by omega⟩
    · rw [hdone.get?, if_pos htrade]
    have hwallet := hdone.wallet
    rw [huser] at hwallet
    simp only [TopUp.due, hdone.success, if_true, htrade]
    omega
  · refine ⟨old, ?_, huser, ?_, hpos⟩
    · rw [hdone.get?, if_neg htrade]
      exact hold
    · rw [if_neg htrade, add_zero]
      exact hcredited

/-- **One attempt.** -/
theorem orderInv_step {step : OrderStep}
    (hinv : OrderInv tradeNo userId s) (hsafe : CompletionSafe tradeNo s step) :
    OrderInv tradeNo userId (orderStep tradeNo userId s step) := by
  have ⟨old, hold, huser, hcredited, hpos⟩ := hinv
  unfold orderStep
  cases hattempt : attempt step.settings step.now s.db step.attempt with
  | error e => exact ⟨old, hold, huser, by simpa using hcredited, hpos⟩
  | ok db' =>
    rw [commit_ok]
    dsimp only
    cases attempt_ok hattempt with
    | repeated _ _ => exact ⟨old, hold, huser, by simpa using hcredited, hpos⟩
    | @failed row provider target hstored hpending ha =>
      have hsame : balance (saveTopUp s.db { row with status := target }) = balance s.db := by
        funext a
        cases a <;> rfl
      rw [hsame, sub_self, ite_self, add_zero]
      by_cases htrade : row.tradeNo = tradeNo
      · obtain rfl : old = row := Option.some.inj (hold.symm.trans (htrade ▸ hstored))
        have htarget : target ≠ .success := by
          have hsafe := hsafe old (by rw [ha]; exact htrade) hold hpending
          rw [ha] at hsafe
          exact hsafe
        refine ⟨{ old with status := target }, ?_, huser, ?_, fun hs => absurd hs htarget⟩
        · exact Table.get?_set_of_eq _ htrade
        · rw [hcredited]
          simp [TopUp.due, hpending, htarget]
      · refine ⟨old, ?_, huser, hcredited, hpos⟩
        show (s.db.topUps.set _).get? tradeNo = _
        rw [Table.get?_set_of_ne]
        · exact hold
        · exact htrade
    | @credited row row' quota _ ha hquota _ hdone hrow =>
      have hname : step.attempt.tradeNo = row.tradeNo := by
        rcases ha with ha | ⟨htrade, _⟩
        · rw [ha]
          rfl
        · exact htrade.symm
      obtain ⟨_, hlow, _⟩ := topUpQuota_ok.mp hquota
      exact orderInv_completed hname hinv hdone fun _ => ⟨hrow.1, by omega⟩
    | @amount row row' email _ ha hprovider hamount _ hdone hrow =>
      exact orderInv_completed (ha ▸ rfl) hinv hdone fun _ => ⟨hrow.1, hamount⟩
    | @unrecorded row row' quota method _ ha hprovider hquota _ hdone hrow =>
      refine orderInv_completed (ha ▸ rfl) hinv hdone fun htrade => ?_
      have hsafe := hsafe row (ha ▸ htrade) (htrade ▸ hdone.stored) hdone.pending
      rw [ha] at hsafe
      obtain ⟨_, hlow, _⟩ := topUpQuota_ok.mp hquota
      exact ⟨hrow.1.trans (hsafe hprovider quota hquota), by omega⟩
    | @doubled row row' quota customerId _ ha hprovider hquota hdone hrow =>
      refine orderInv_completed (ha ▸ rfl) hinv hdone fun htrade => ?_
      have hsafe := hsafe row (ha ▸ htrade) (htrade ▸ hdone.stored) hdone.pending
      rw [ha] at hsafe
      exact absurd hprovider hsafe

/-! ### Whole runs -/

/-- **Credited once, as recorded.** In every run of attempts on any orders, those on an order
    that is not completed yet credit its user by what the order then records, provided that
    they all meet the condition. -/
theorem order_credited_once (tradeNo : String) (row : TopUp) (db : Database)
    (hrow : db.topUps.get? tradeNo = some row) (hopen : row.status ≠ .success)
    (steps : List OrderStep)
    (hsafe : Along (orderStep tradeNo row.userId) (CompletionSafe tradeNo) { db := db } steps) :
    OrderExact tradeNo (run (orderStep tradeNo row.userId) { db := db } steps) := by
  have hinit : OrderInv tradeNo row.userId { db := db } := by
    refine ⟨row, hrow, rfl, ?_, fun hs => absurd hs hopen⟩
    simp [TopUp.due, hopen]
  obtain ⟨final, hfinal, _, hcredited, hpos⟩ :=
    invariant_along (I := OrderInv tradeNo row.userId) (fun _ _ hI hC => orderInv_step hI hC) _
      steps hinit hsafe
  exact ⟨final, hfinal, hcredited, hpos⟩

/-- 500000 quota for a dollar, and 7.3 yuan for a dollar. -/
def usualSettings : MoneySettings := { quotaPerUnit := ⟨500000, 0⟩, usdExchangeRate := ⟨73, 1⟩ }

/-- A pending order of two dollars. -/
def twoDollars (provider : PaymentProvider) : TopUp :=
  { tradeNo := "T1", userId := 1, amount := 2, money := ⟨2, 0⟩, paymentProvider := provider }

/-- The order and its user, whose wallet is empty. -/
def orderDatabase (provider : PaymentProvider) : Database :=
  { users := .ofList _ [{ id := 1, quota := 0 }]
    topUps := .ofList _ [twoDollars provider] }

/-- Two callbacks, an administrator and a late failure notice for one order. -/
def crowdedOrder : List OrderStep :=
  [⟨usualSettings, 10, .waffo "T1"⟩, ⟨usualSettings, 11, .waffo "T1"⟩,
    ⟨usualSettings, 12, .manual "T1"⟩,
    ⟨usualSettings, 13, .updateStatus "T1" (some .waffo) .failed⟩]

/-- Only the first of them credits the order. -/
theorem crowdedOrder_credited_once :
    OrderExact "T1" (run (orderStep "T1" 1) { db := orderDatabase .waffo } crowdedOrder) := by
  refine order_credited_once "T1" (twoDollars .waffo) (orderDatabase .waffo) rfl (by decide)
    crowdedOrder ⟨?_, ?_, ?_, ?_, trivial⟩
  iterate 3 exact fun _ _ _ _ => trivial
  · intro _ _ _ _ hsuccess
    cases hsuccess

/-- **The two inexact callbacks.** One callback of Stripe credits twice what the order records;
    one of Epay credits an order that records nothing. -/
theorem callbacks_inexact :
    ¬ OrderExact "T1" (run (orderStep "T1" 1) { db := orderDatabase .stripe }
        [⟨usualSettings, 10, .stripe "T1" "cus"⟩]) ∧
      ¬ OrderExact "T1" (run (orderStep "T1" 1) { db := orderDatabase .epay }
        [⟨usualSettings, 10, .epay "T1" ""⟩]) := by
  constructor
  · -- two million credited, one million recorded
    rintro ⟨row, hrow, hcredited, _⟩
    cases hrow
    exact absurd hcredited (by decide)
  · -- a success that records no credit
    rintro ⟨row, hrow, _, hpos⟩
    cases hrow
    exact absurd (hpos rfl) (by decide)

end TokenGateway.Payment
