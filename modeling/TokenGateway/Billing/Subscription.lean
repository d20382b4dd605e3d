import Mathlib.Data.List.Sort
import TokenGateway.Billing.Balance

namespace TokenGateway.Billing

open Base Table List

/-!
# Subscriptions

`model/subscription.go`: usage changes, the quota reset of a plan and the pre-consume of a
request, with its idempotency record.

* `postConsumeUserSubscriptionDeltaTx` — move the usage, floored at zero;
* `refundSubscriptionPreConsumeTx` — give one pre-consume back, once;
* `maybeResetUserSubscriptionWithPlanTx` — start a new quota period when one is due;
* `preConsumeUserSubscription` — charge the first active subscription that has room.
-/

/-! ### Usage changes -/

variable {db db' : Database} {requestId : String}

/-- The usage after a change by `delta`: it never drops below zero. -/
def usedAfter (sub : UserSubscription) (delta : Int) : Int :=
  if sub.amountUsed + delta < 0 then 0 else sub.amountUsed + delta

theorem usedAfter_nonneg (sub : UserSubscription) (delta : Int) : 0 ≤ usedAfter sub delta := by
  unfold usedAfter
  split
  · exact le_refl 0
  · omega

theorem balance_subscription_nonpos (db : Database) (id : Int) :
    balance db (.subscription id) ≤ 0 := by
  show db.subscriptions.column (fun s => -s.amountUsed) id ≤ 0
  unfold column
  cases db.subscriptions.get? id with
  | none => simp
  | some sub =>
    have := sub.amountUsed_nonneg
    simpa using this

/-- `postConsumeUserSubscriptionDeltaTx`: usage is floored at zero and never passes a
    bounded total. -/
def postConsumeUserSubscriptionDeltaTx (db : Database) (userSubscriptionId : Int) (delta : Int) :
    Except BillingError Database :=
  if userSubscriptionId ≤ 0 then
    .error (.text "invalid userSubscriptionId")
  else if delta = 0 then
    .ok db
  else match db.subscriptions.get? userSubscriptionId with
    | none => .error .recordNotFound
    | some sub =>
        let newUsed := usedAfter sub delta
        let total := sub.amountTotal
        if 0 < total ∧ total < newUsed then
          .error (.text s!"subscription used exceeds total, used={newUsed} total={total}")
        else .ok (setAmountUsed db sub newUsed (usedAfter_nonneg sub delta))

section

variable {subId delta : Int} (h : postConsumeUserSubscriptionDeltaTx db subId delta = .ok db')
include h

/-- A committed usage change by `delta ≠ 0` wrote the floored usage. -/
theorem postConsumeUserSubscriptionDeltaTx_ok :
    (delta = 0 ∧ db' = db) ∨
      ∃ sub, db.subscriptions.get? subId = some sub ∧ delta ≠ 0 ∧
        db' = setAmountUsed db sub (usedAfter sub delta) (usedAfter_nonneg sub delta) := by
  unfold postConsumeUserSubscriptionDeltaTx at h
  split at h
  · cases h
  split at h
  · cases h
    exact .inl ⟨by assumption, rfl⟩
  rename_i hne
  right
  cases hs : db.subscriptions.get? subId with
  | none =>
    simp only [hs] at h
    cases h
  | some sub =>
    simp only [hs] at h
    split_ifs at h
    cases h
    exact ⟨sub, rfl, hne, rfl⟩

theorem postConsumeUserSubscriptionDeltaTx_rest :
    db' = { db with subscriptions := db'.subscriptions } := by
  rcases postConsumeUserSubscriptionDeltaTx_ok h with ⟨_, rfl⟩ | ⟨sub, _, _, rfl⟩ <;> rfl

/-- The ledger after a usage change: the floor cuts what a give-back asks for beyond the
    usage. -/
theorem postConsumeUserSubscriptionDeltaTx_balance :
    balance db' = balance db + Pi.single (.subscription subId)
      (-max delta (balance db (.subscription subId))) := by
  rcases postConsumeUserSubscriptionDeltaTx_ok h with ⟨rfl, rfl⟩ | ⟨sub, hs, _, rfl⟩
  · rw [max_eq_left (balance_subscription_nonpos db' subId)]
    simp
  have hbal : balance db (.subscription subId) = -sub.amountUsed :=
    column_of_get? hs (fun s => -s.amountUsed)
  rw [balance_setAmountUsed hs]
  congr 2
  unfold usedAfter
  split <;> omega

end

/-- `refundSubscriptionPreConsumeTx`: the amount the record pre-consumed; a refunded record
    gives nothing back a second time. -/
def refundSubscriptionPreConsumeTx (db : Database) (requestId : String) :
    Except BillingError (Int × Database) :=
  match db.preConsumeRecords.get? requestId with
  | none => .error .recordNotFound
  | some record =>
      if record.status = .refunded then
        .ok (record.preConsumed, db)
      else do
        let db ←
          if 0 < record.preConsumed then
            postConsumeUserSubscriptionDeltaTx db record.userSubscriptionId (-record.preConsumed)
          else .ok db
        .ok (record.preConsumed, markRefunded db record)

theorem refundSubscriptionPreConsumeTx_ok {refunded : Int}
    (h : refundSubscriptionPreConsumeTx db requestId = .ok (refunded, db')) :
    ∃ record, db.preConsumeRecords.get? requestId = some record ∧
      refunded = record.preConsumed ∧
      ((record.status = .refunded ∧ db' = db) ∨
        (record.status ≠ .refunded ∧
          ∃ sub, db.subscriptions.get? record.userSubscriptionId = some sub ∧
            db' = markRefunded
              (setAmountUsed db sub (usedAfter sub (-record.preConsumed))
                (usedAfter_nonneg sub (-record.preConsumed))) record)) := by
  unfold refundSubscriptionPreConsumeTx at h
  split at h
  · cases h
  rename_i record hr
  refine ⟨record, hr, ?_⟩
  split at h
  · cases h
    exact ⟨rfl, .inl ⟨by assumption, rfl⟩⟩
  have hpos := record.preConsumed_pos
  simp only [if_pos hpos] at h
  obtain ⟨mid, hpost, h⟩ := seq_ok.mp h
  cases h
  rcases postConsumeUserSubscriptionDeltaTx_ok hpost with ⟨h0, _⟩ | ⟨sub, hs, _, rfl⟩
  · omega
  · exact ⟨rfl, .inr ⟨by assumption, sub, hs, rfl⟩⟩

/-! ### Quota periods -/

variable {cal : Calendar}

/-- `time.Date` and `AddDate` in the server's location, on Unix seconds: the next midnight,
    the next Monday's and the next month's first, each later than the given instant.  Zones whose
    clocks go forward at midnight are left out: there `time.Date` may give back the instant. -/
structure Calendar where
  (nextDay nextMonday nextMonth : Int → Int)
  nextDay_gt : ∀ t, t < nextDay t
  nextMonday_gt : ∀ t, t < nextMonday t
  nextMonth_gt : ∀ t, t < nextMonth t

/-- Days, weeks and months of a fixed length. -/
def fixedCalendar : Calendar where
  nextDay t := t + 86400
  nextMonday t := t + 604800
  nextMonth t := t + 2592000
  nextDay_gt t := by omega
  nextMonday_gt t := by omega
  nextMonth_gt t := by omega

/-- The start of the next period of `plan` after `base`; `0` when there is none. -/
def nextPeriod (cal : Calendar) (base : Int) (plan : SubscriptionPlan) : Int :=
  match plan.quotaResetPeriod with
  | .never => 0
  | .daily => cal.nextDay base
  | .weekly => cal.nextMonday base
  | .monthly => cal.nextMonth base
  | .custom => if plan.quotaResetCustomSeconds ≤ 0 then 0 else base + plan.quotaResetCustomSeconds

/-- `calcNextResetTime`: no reset falls after the end of the subscription.  The seconds of a custom
    period are added exactly, as the code does up to 9223372036 of them
    (`wrappedNextResetTime_eq`). -/
def calcNextResetTime (cal : Calendar) (base : Int) (plan : SubscriptionPlan) (endUnix : Int) :
    Int :=
  let next := nextPeriod cal base plan
  if 0 < endUnix ∧ endUnix < next then 0 else next

/-- A reset time is after the instant it was computed from. -/
theorem lt_calcNextResetTime {base : Int} {plan : SubscriptionPlan} {endUnix : Int}
    (h : 0 < calcNextResetTime cal base plan endUnix) :
    base < calcNextResetTime cal base plan endUnix := by
  unfold calcNextResetTime at h ⊢
  dsimp only at h ⊢
  split at h
  · omega
  rename_i hend
  simp only [if_neg hend]
  unfold nextPeriod at h ⊢
  cases hp : plan.quotaResetPeriod with
  | never => simp [hp] at h
  | daily => exact cal.nextDay_gt base
  | weekly => exact cal.nextMonday_gt base
  | monthly => exact cal.nextMonth_gt base
  | custom =>
    simp only [hp] at h ⊢
    split at h
    · omega
    · omega

/-- The loop `for next > 0 && next <= now`: whether it advanced, and the last base and next
    reset times.  Every round moves `base` forward, so `now - base` rounds are enough. -/
def advanceReset (cal : Calendar) (plan : SubscriptionPlan) (endTime now : Int) :
    Nat → Bool → Int → Int → Bool × Int × Int
  | 0, advanced, base, next => (advanced, base, next)
  | fuel + 1, advanced, base, next =>
      if 0 < next ∧ next ≤ now then
        advanceReset cal plan endTime now fuel true next (calcNextResetTime cal next plan endTime)
      else (advanced, base, next)

/-- The loop ends by its own condition, not by running out of rounds, at the next reset time of
    its last base. -/
theorem advanceReset_done (cal : Calendar) (plan : SubscriptionPlan) (endTime now : Int)
    (fuel : Nat) (advanced : Bool) (base : Int) (hfuel : now - base ≤ fuel) :
    let out := advanceReset cal plan endTime now fuel advanced base
      (calcNextResetTime cal base plan endTime)
    ¬ (0 < out.2.2 ∧ out.2.2 ≤ now) ∧ out.2.2 = calcNextResetTime cal out.2.1 plan endTime := by
  induction fuel generalizing advanced base with
  | zero =>
    refine ⟨?_, rfl⟩
    rintro ⟨hpos, hle⟩
    have hlt := lt_calcNextResetTime hpos
    simp only [advanceReset] at hle
    omega
  | succ fuel ih =>
    unfold advanceReset
    split
    · -- one round: the new base is the old `next`, strictly later
      rename_i hgo
      have hlt := lt_calcNextResetTime hgo.1
      exact ih true _ (by omega)
    · exact ⟨by assumption, rfl⟩

/-! ### The loop with a 64-bit duration -/

section Wrapped

/-- The whole seconds of `time.Duration(seconds) * time.Second`, a 64-bit product. -/
def customStep (seconds : Int) : Int := (seconds * 1000000000).bmod (2 ^ 64) / 1000000000

variable (cal : Calendar) (plan : SubscriptionPlan) (endTime now base : Int)

/-- `calcNextResetTime` with that product. -/
def wrappedNextResetTime : Int :=
  if plan.quotaResetPeriod = .custom ∧ 0 < plan.quotaResetCustomSeconds then
    let next := base + customStep plan.quotaResetCustomSeconds
    if 0 < endTime ∧ endTime < next then 0 else next
  else calcNextResetTime cal base plan endTime

theorem wrappedNextResetTime_eq (h : plan.quotaResetCustomSeconds ≤ 9223372036) :
    wrappedNextResetTime cal plan endTime base = calcNextResetTime cal base plan endTime := by
  unfold wrappedNextResetTime
  split
  · next hcustom =>
    have hstep : customStep plan.quotaResetCustomSeconds = plan.quotaResetCustomSeconds := by
      rw [customStep, Int.bmod_eq_of_le (by omega) (by omega)]
      omega
    simp [calcNextResetTime, nextPeriod, hcustom.1, hstep, if_neg hcustom.2.not_ge]
  · rfl

/-- `next` after some rounds of `for next > 0 && next <= now`; none once the loop ended. -/
def resetRounds : Nat → Int → Option Int
  | 0, next => some next
  | rounds + 1, next =>
      if 0 < next ∧ next ≤ now then resetRounds rounds (wrappedNextResetTime cal plan endTime next)
      else none

variable {cal plan endTime now} in
/-- The loop ends if every round makes a measure smaller. -/
theorem resetRounds_ends (measure : Int → Nat) (h : ∀ next, 0 < next → next ≤ now →
      measure (wrappedNextResetTime cal plan endTime next) < measure next) (next : Int) :
    ∃ rounds, resetRounds cal plan endTime now rounds next = none := by
  induction hm : measure next using Nat.strong_induction_on generalizing next with
  | _ m ih =>
    by_cases hgo : 0 < next ∧ next ≤ now
    · obtain ⟨rounds, hend⟩ := ih _ (hm ▸ h next hgo.1 hgo.2) _ rfl
      exact ⟨rounds + 1, (if_pos hgo).trans hend⟩
    · exact ⟨1, if_neg hgo⟩

/-- The rounds of the plan are as long as its wrapped product. -/
def SubscriptionPlan.StepsBy (plan : SubscriptionPlan) : Prop :=
  plan.quotaResetPeriod = .custom ∧ 0 < plan.quotaResetCustomSeconds

variable {plan} in
theorem wrappedNextResetTime_custom (h : plan.StepsBy) (next : Int)
    (hcut : next + customStep plan.quotaResetCustomSeconds ≤ 1) :
    wrappedNextResetTime cal plan endTime next =
      next + customStep plan.quotaResetCustomSeconds := by
  unfold wrappedNextResetTime
  rw [if_pos (show _ ∧ _ from h)]
  exact if_neg (by omega)

/-- A round gives 0, or moves by the wrapped product, or forward. -/
theorem wrappedNextResetTime_cases (next : Int) :
    wrappedNextResetTime cal plan endTime next ≤ 0 ∨
      plan.StepsBy ∧ wrappedNextResetTime cal plan endTime next =
        next + customStep plan.quotaResetCustomSeconds ∨
      ¬ plan.StepsBy ∧ next < wrappedNextResetTime cal plan endTime next := by
  by_cases hpos : wrappedNextResetTime cal plan endTime next ≤ 0
  · exact .inl hpos
  refine .inr ?_
  unfold wrappedNextResetTime at hpos ⊢
  split_ifs at hpos ⊢ with hcustom
  · refine .inl ⟨hcustom, ?_⟩
    dsimp only at hpos ⊢
    split_ifs at hpos ⊢
    · omega
    · rfl
  · exact .inr ⟨hcustom, lt_calcNextResetTime (by omega)⟩

end Wrapped

/-- `sub.AmountUsed = 0`. -/
def UserSubscription.cleared (sub : UserSubscription) : UserSubscription :=
  { sub with amountUsed := 0, amountUsed_nonneg := Int.le_refl 0 }

/-- The row after `maybeResetUserSubscriptionWithPlanTx`: a due reset clears the usage, and a
    row that has no reset time yet gets one. -/
def resetRow (cal : Calendar) (sub : UserSubscription) (plan : SubscriptionPlan) (now : Int) :
    UserSubscription :=
  if 0 < sub.nextResetTime ∧ now < sub.nextResetTime then sub
  else if plan.quotaResetPeriod = .never then sub
  else
    let base := if sub.lastResetTime ≤ 0 then sub.startTime else sub.lastResetTime
    match advanceReset cal plan sub.endTime now (now - base).toNat false base
        (calcNextResetTime cal base plan sub.endTime) with
    | (false, base, next) =>
        if sub.nextResetTime = 0 ∧ 0 < next then
          { sub with nextResetTime := next, lastResetTime := base }
        else sub
    | (true, base, next) =>
        { sub.cleared with lastResetTime := base, nextResetTime := next }

/-- `maybeResetUserSubscriptionWithPlanTx`: the row as it is saved. -/
def maybeResetUserSubscriptionWithPlanTx (cal : Calendar) (db : Database)
    (sub : UserSubscription) (plan : SubscriptionPlan) (now : Int) : UserSubscription × Database :=
  let row := resetRow cal sub plan now
  (row, { db with subscriptions := db.subscriptions.set row })

@[simp] theorem resetRow_id (cal : Calendar) (sub : UserSubscription) (plan : SubscriptionPlan)
    (now : Int) : (resetRow cal sub plan now).id = sub.id := by
  unfold resetRow
  split
  · rfl
  split
  · rfl
  dsimp only
  split
  · split <;> rfl
  · rfl

/-! ### The pre-consume of a request -/

variable {res : SubscriptionPreConsumeResult}

def isSpace (c : Char) : Bool :=
  c.val ∈ [0x09, 0x0a, 0x0b, 0x0c, 0x0d, 0x20, 0x85, 0xa0, 0x1680, 0x2028, 0x2029, 0x202f,
      0x205f, 0x3000] ∨ 0x2000 ≤ c.val ∧ c.val ≤ 0x200a

/-- `strings.TrimSpace(s) == ""`. -/
def isBlank (s : String) : Bool := s.toList.all isSpace

structure SubscriptionPreConsumeResult where
  (userSubscriptionId preConsumed amountTotal amountUsedBefore amountUsedAfter : Int)

def getSubscriptionPlanByIdTx (db : Database) (id : Int) : Except BillingError SubscriptionPlan :=
  if id ≤ 0 then .error (.text "invalid plan id")
  else match db.plans.get? id with
    | none => .error .recordNotFound
    | some plan => .ok plan

/-- The active subscriptions of a user, the one that ends first at the head. -/
def activeSubscriptions (db : Database) (userId now : Int) : List UserSubscription :=
  (db.subscriptions.rows.filter fun sub =>
      sub.userId = userId ∧ sub.status = .active ∧ now < sub.endTime).insertionSort
    fun a b => a.endTime < b.endTime ∨ a.endTime = b.endTime ∧ a.id ≤ b.id

/-- The loop over the candidates: the first that has room for `amount` is charged. -/
def preConsumeFrom (cal : Calendar) (requestId : String) (userId amount now : Int)
    (hpos : 0 < amount) : List UserSubscription → Database →
      Except BillingError (SubscriptionPreConsumeResult × Database)
  | [], _ => .error (.text s!"subscription quota insufficient, need={amount}")
  | candidate :: rest, db => do
      let plan ← getSubscriptionPlanByIdTx db candidate.planId
      let (sub, db) := maybeResetUserSubscriptionWithPlanTx cal db candidate plan now
      let usedBefore := sub.amountUsed
      if 0 < sub.amountTotal ∧ sub.amountTotal - usedBefore < amount then
        preConsumeFrom cal requestId userId amount now hpos rest db
      else
        -- The record is new: its key was looked up earlier in this transaction.
        let record : SubscriptionPreConsumeRecord :=
          { requestId := requestId, userId := userId, userSubscriptionId := sub.id,
            preConsumed := amount, status := .consumed, preConsumed_pos := hpos }
        let db := { db with preConsumeRecords := db.preConsumeRecords.set record }
        let db := setAmountUsed db sub (usedBefore + amount)
          (Int.add_nonneg sub.amountUsed_nonneg (Int.le_of_lt hpos))
        .ok ({ userSubscriptionId := sub.id, preConsumed := amount,
               amountTotal := sub.amountTotal, amountUsedBefore := usedBefore,
               amountUsedAfter := usedBefore + amount }, db)

/-- `PreConsumeUserSubscription`, inside the caller's transaction. -/
def preConsumeUserSubscription (cal : Calendar) (db : Database) (requestId : String)
    (userId amount now : Int) : Except BillingError (SubscriptionPreConsumeResult × Database) :=
  if userId ≤ 0 then
    .error (.text "invalid userId")
  else if isBlank requestId then
    .error (.text "requestId is empty")
  else if hpos : 0 < amount then
    match db.preConsumeRecords.get? requestId with
    | some existing =>
        if existing.status = .refunded then
          .error (.text "subscription pre-consume already refunded")
        else match db.subscriptions.get? existing.userSubscriptionId with
          | none => .error .recordNotFound
          | some sub =>
              .ok ({ userSubscriptionId := sub.id, preConsumed := existing.preConsumed,
                     amountTotal := sub.amountTotal, amountUsedBefore := sub.amountUsed,
                     amountUsedAfter := sub.amountUsed }, db)
    | none =>
        match activeSubscriptions db userId now with
        | [] => .error (.text "no active subscription")
        | subs => preConsumeFrom cal requestId userId amount now hpos subs db
  else .error (.text "amount must be > 0")

/-- A row is as before, or as its plan's due reset left it. -/
def SameOrReset (cal : Calendar) (now : Int) (db : Database)
    (subs : Table UserSubscription UserSubscription.id) (id : Int) : Prop :=
  subs.get? id = db.subscriptions.get? id ∨
    ∃ sub plan, db.subscriptions.get? id = some sub ∧ db.plans.get? sub.planId = some plan ∧
      subs.get? id = some (resetRow cal sub plan now)

/-- What a charged pre-consume wrote: the record of the request, and `amount` more usage on
    one subscription, counted from its due reset. -/
structure SubscriptionCharged (cal : Calendar) (requestId : String) (userId amount now : Int)
    (db : Database) (res : SubscriptionPreConsumeResult) (db' : Database) : Prop where
  amount_pos : 0 < amount
  result_amount : res.preConsumed = amount
  result_after : res.amountUsedAfter = res.amountUsedBefore + amount
  row : ∃ sub plan, db.subscriptions.get? res.userSubscriptionId = some sub ∧
    db.plans.get? sub.planId = some plan ∧
    res.amountUsedBefore = (resetRow cal sub plan now).amountUsed
  charged : ∃ sub', db'.subscriptions.get? res.userSubscriptionId = some sub' ∧
    sub'.amountUsed = res.amountUsedAfter
  others : ∀ id, id ≠ res.userSubscriptionId → SameOrReset cal now db db'.subscriptions id
  record : ∃ record, db'.preConsumeRecords = db.preConsumeRecords.set record ∧
    record.requestId = requestId ∧ record.userSubscriptionId = res.userSubscriptionId ∧
    record.preConsumed = amount ∧ record.status = .consumed
  rest : db' = { db with
    subscriptions := db'.subscriptions, preConsumeRecords := db'.preConsumeRecords }

/-- The row that a pre-consume charged: `amount` on top of its due reset, within its total. -/
def ChargedRow (cal : Calendar) (amount now : Int) (db : Database) (id : Int) (db' : Database) :
    Prop :=
  ∃ sub plan sub', db.subscriptions.get? id = some sub ∧ db.plans.get? sub.planId = some plan ∧
    db'.subscriptions.get? id = some sub' ∧
    sub'.lastResetTime = (resetRow cal sub plan now).lastResetTime ∧
    sub'.amountTotal = (resetRow cal sub plan now).amountTotal ∧
    sub'.amountUsed = (resetRow cal sub plan now).amountUsed + amount ∧
    (0 < sub'.amountTotal → sub'.amountUsed ≤ sub'.amountTotal)

theorem getSubscriptionPlanByIdTx_ok {id : Int} {plan : SubscriptionPlan}
    (h : getSubscriptionPlanByIdTx db id = .ok plan) : db.plans.get? id = some plan := by
  unfold getSubscriptionPlanByIdTx at h
  split_ifs at h
  split at h
  · cases h
  cases h
  assumption

/-- The loop, with what it leaves alone: rows outside the candidate list are untouched. -/
private theorem preConsumeFrom_spec {userId amount now : Int} {hpos : 0 < amount}
    (cands : List UserSubscription) (db : Database)
    (hrows : ∀ c ∈ cands, db.subscriptions.get? c.id = some c)
    (hnd : (cands.map UserSubscription.id).Nodup)
    (h : preConsumeFrom cal requestId userId amount now hpos cands db = .ok (res, db')) :
    SubscriptionCharged cal requestId userId amount now db res db' ∧
      ChargedRow cal amount now db res.userSubscriptionId db' ∧
      res.userSubscriptionId ∈ cands.map UserSubscription.id ∧
      ∀ id, id ∉ cands.map UserSubscription.id →
        db'.subscriptions.get? id = db.subscriptions.get? id := by
  induction cands generalizing db with
  | nil => cases h
  | cons c rest ih =>
    rw [map_cons, nodup_cons] at hnd
    have hc := hrows c (by simp)
    unfold preConsumeFrom at h
    obtain ⟨plan, hplan, h⟩ := seq_ok.mp h
    have hplan := getSubscriptionPlanByIdTx_ok hplan
    cases hreset : maybeResetUserSubscriptionWithPlanTx cal db c plan now with
    | mk sub db1 =>
    rw [hreset] at h
    simp only [maybeResetUserSubscriptionWithPlanTx] at hreset
    obtain ⟨rfl, rfl⟩ := hreset
    dsimp only at h
    split at h
    · -- skipped: the candidate was at most reset, and the rest of the list does not name it
      have hne : ∀ c' ∈ rest, (resetRow cal c plan now).id ≠ c'.id := by
        intro c' hc' heq
        rw [resetRow_id] at heq
        exact hnd.1 (heq ▸ mem_map_of_mem hc')
      obtain ⟨hch, hcharged, hmem, hkeep⟩ := ih _ (fun c' hc' => by
        rw [get?_set_of_ne _ (hne c' hc')]
        exact hrows c' (by simp [hc'])) hnd.2 h
      have hresid : (resetRow cal c plan now).id ≠ res.userSubscriptionId := by
        rw [resetRow_id]
        exact fun heq => hnd.1 (heq ▸ hmem)
      refine ⟨⟨hch.amount_pos, hch.result_amount, hch.result_after, ?_, hch.charged, ?_,
        hch.record, ?_⟩, ?_, by simp [hmem], ?_⟩
      · obtain ⟨sub, plan', hs, hp, hused⟩ := hch.row
        rw [get?_set_of_ne _ hresid] at hs
        exact ⟨sub, plan', hs, hp, hused⟩
      · intro id hid
        by_cases hcid : id = c.id
        · subst hcid
          right
          refine ⟨c, plan, hc, hplan, ?_⟩
          rw [hkeep c.id hnd.1]
          exact get?_set_of_eq _ (resetRow_id cal c plan now)
        · have hne' : (resetRow cal c plan now).id ≠ id := by
            rw [resetRow_id]
            exact Ne.symm hcid
          rcases hch.others id hid with hsame | ⟨sub, plan', hs, hp, hreset⟩
          · left
            rw [hsame, get?_set_of_ne _ hne']
          · right
            rw [get?_set_of_ne _ hne'] at hs
            exact ⟨sub, plan', hs, hp, hreset⟩
      · rw [hch.rest]
      · obtain ⟨sub, plan', sub', hs, hrow⟩ := hcharged
        rw [get?_set_of_ne _ hresid] at hs
        exact ⟨sub, plan', sub', hs, hrow⟩
      · intro id hid
        rw [map_cons, mem_cons, not_or] at hid
        rw [hkeep id hid.2, get?_set_of_ne]
        rw [resetRow_id]
        exact Ne.symm hid.1
    · -- charged
      cases h
      have hself := resetRow_id cal c plan now
      have hget : ∀ (row : UserSubscription), row.id = c.id → ∀ id, id ≠ c.id →
          ((db.subscriptions.set (resetRow cal c plan now)).set row).get? id =
            db.subscriptions.get? id := by
        intro row hrow id hid
        rw [get?_set_of_ne _ (by rw [hrow]; exact Ne.symm hid),
          get?_set_of_ne _ (by rw [hself]; exact Ne.symm hid)]
      refine ⟨⟨hpos, rfl, rfl, ⟨c, plan, by simpa using hc, hplan, rfl⟩,
        ⟨_, get?_set_of_eq _ rfl, rfl⟩, ?_, ⟨_, rfl, rfl, rfl, rfl, rfl⟩, rfl⟩,
        ⟨c, plan, _, by simpa using hc, hplan, get?_set_of_eq _ rfl, rfl, rfl, rfl, ?_⟩,
        by simp, ?_⟩
      · intro id hid
        exact .inl (hget _ (by exact hself) id (by simpa using hid))
      · intro htotal
        dsimp only at htotal ⊢
        omega
      · intro id hid
        rw [map_cons, mem_cons, not_or] at hid
        exact hget _ (by exact hself) id hid.1

section

variable {userId amount now : Int}
  (h : preConsumeUserSubscription cal db requestId userId amount now = .ok (res, db'))
include h

/-- **Subscription pre-consume.** A request that has a live record changes nothing; any other
    committed pre-consume wrote its record and charged one subscription by `amount`. -/
theorem preConsumeUserSubscription_ok :
    (∃ record, db.preConsumeRecords.get? requestId = some record ∧
        record.status ≠ .refunded ∧ res.userSubscriptionId = record.userSubscriptionId ∧
        res.preConsumed = record.preConsumed ∧ db' = db) ∨
      (db.preConsumeRecords.get? requestId = none ∧
        SubscriptionCharged cal requestId userId amount now db res db' ∧
        ChargedRow cal amount now db res.userSubscriptionId db') := by
  unfold preConsumeUserSubscription at h
  split at h
  · cases h
  split at h
  · cases h
  split_ifs at h
  split at h
  · rename_i existing he
    left
    split_ifs at h
    split at h
    · cases h
    rename_i sub hs
    have hid : sub.id = existing.userSubscriptionId := key_of_get? hs
    cases h
    exact ⟨existing, he, by assumption, hid, rfl, rfl⟩
  · rename_i hnone
    right
    refine ⟨hnone, ?_⟩
    split at h
    · cases h
    rename_i hpos _ subs _
    -- the candidates are rows of the table, each once
    have hperm : (activeSubscriptions db userId now).Perm
        (db.subscriptions.rows.filter fun sub =>
          sub.userId = userId ∧ sub.status = .active ∧ now < sub.endTime) :=
      perm_insertionSort _ _
    have hrows : ∀ c ∈ activeSubscriptions db userId now, db.subscriptions.get? c.id = some c := by
      intro c hc
      have hmem := (mem_filter.mp (hperm.mem_iff.mp hc)).1
      exact mem_rows.mp hmem
    have hnodup : ((activeSubscriptions db userId now).map UserSubscription.id).Nodup :=
      ((hperm.map UserSubscription.id).nodup_iff).mpr
        (db.subscriptions.nodup.sublist (filter_sublist.map _))
    obtain ⟨hcharged, hrow, _⟩ := preConsumeFrom_spec _ db hrows hnodup h
    exact ⟨hcharged, hrow⟩

theorem preConsumeUserSubscription_requestId : requestId ≠ "" := by
  rintro rfl
  unfold preConsumeUserSubscription at h
  split at h
  · cases h
  cases h

end

/-- A row that has not been used. -/
def newSubscription : UserSubscription :=
  { id := 1, userId := 1, planId := 1, amountTotal := 1000, amountUsed := 0, endTime := 100 }

end TokenGateway.Billing
