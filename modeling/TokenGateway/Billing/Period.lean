import TokenGateway.Billing.Subscription

namespace TokenGateway.Billing

open Base Table

/-!
# Quota periods

A reset clears the usage of a subscription while requests are in flight: what they are charged
or given back later is written to the usage of the new period.

* `resetUserSubscription`, `adminResetUserSubscriptionsByPlan`, `adminResetPlanSubscriptions`,
  `resetDueSubscriptions` — `model/subscription.go`: the resets besides the one of a pre-consume;
* `resetRow_again` — a reset is made once;
* `periodAudit` — a transaction, with an account of the requests of the current period;
* `period_usage` — what the usage is in every state of a run;
* `refund_of_old_period` — a refund that empties the next period.
-/

/-! ### Resets -/

variable (cal : Calendar)

/-- `resetUserSubscriptionTx`: the row as it is saved. -/
def resetUserSubscription (sub : UserSubscription) (plan : SubscriptionPlan)
    (now : Int) (advanceResetTime : Bool) : UserSubscription :=
  if advanceResetTime then
    let nextReset := calcNextResetTime cal now plan sub.endTime
    { sub.cleared with
      nextResetTime := nextReset, lastResetTime := if 0 < nextReset then now else 0 }
  else sub.cleared

/-- `tx.Save(sub)`. -/
def saveSubscription (db : Database) (sub : UserSubscription) : Database :=
  { db with subscriptions := db.subscriptions.set sub }

/-- The loop over the locked rows of an admin reset. -/
def resetRows (plan : SubscriptionPlan) (now : Int) (advanceResetTime : Bool) :
    List UserSubscription → Database → Database
  | [], db => db
  | sub :: rest, db =>
      resetRows plan now advanceResetTime rest
        (saveSubscription db (resetUserSubscription cal sub plan now advanceResetTime))

structure SubscriptionResetResult where
  planId : Int
  (matchedCount resetCount userCount : Nat)
  advanceResetTime : Bool
  planTitle : String
  affectedUserIds : List Int

/-- `buildSubscriptionResetResult`: each user once, in the order of the rows. -/
def buildSubscriptionResetResult (plan : SubscriptionPlan) (subs : List UserSubscription)
    (advanceResetTime : Bool) : SubscriptionResetResult :=
  let userIds := (subs.map UserSubscription.userId).eraseDups
  { planId := plan.id, matchedCount := subs.length, resetCount := subs.length
    userCount := userIds.length, advanceResetTime := advanceResetTime, planTitle := plan.title
    affectedUserIds := userIds }

/-- The active rows of a plan, of one user or of all. -/
def planSubscriptions (db : Database) (planId now : Int) (p : UserSubscription → Bool) :
    List UserSubscription :=
  db.subscriptions.rows.filter fun sub =>
    p sub ∧ sub.planId = planId ∧ sub.status = .active ∧ now < sub.endTime

def adminResetUserSubscriptionsByPlan (db : Database) (userId planId now : Int)
    (advanceResetTime : Bool) : Except BillingError (SubscriptionResetResult × Database) :=
  if userId ≤ 0 ∨ planId ≤ 0 then .error (.text "invalid userId or planId")
  else do
    let plan ← getSubscriptionPlanByIdTx db planId
    match (planSubscriptions db plan.id now fun sub => sub.userId = userId).insertionSort
        fun a b => a.endTime < b.endTime ∨ a.endTime = b.endTime ∧ a.id ≤ b.id with
    | [] => .error (.text "该用户没有有效的此套餐订阅")
    | subs =>
        .ok (buildSubscriptionResetResult plan subs advanceResetTime,
          resetRows cal plan now advanceResetTime subs db)

def adminResetPlanSubscriptions (db : Database) (planId now : Int)
    (advanceResetTime : Bool) : Except BillingError (SubscriptionResetResult × Database) :=
  if planId ≤ 0 then .error (.text "invalid planId")
  else do
    let plan ← getSubscriptionPlanByIdTx db planId
    let subs := (planSubscriptions db plan.id now fun _ => true).insertionSort fun a b =>
      a.userId < b.userId ∨ a.userId = b.userId ∧ (a.endTime < b.endTime ∨ a.endTime = b.endTime ∧
        a.id ≤ b.id)
    .ok (buildSubscriptionResetResult plan subs advanceResetTime,
      resetRows cal plan now advanceResetTime subs db)

/-- The row is due for the sweep: it has a reset time, and the time has come. -/
def sweepDue (sub : UserSubscription) (now : Int) : Bool :=
  0 < sub.nextResetTime ∧ sub.nextResetTime ≤ now

/-- One transaction of `ResetDueSubscriptions`: the row is locked and looked at again. -/
def resetDueSubscription (db : Database) (id : Int) (plan : SubscriptionPlan)
    (now : Int) : Database :=
  match db.subscriptions.get? id with
  | none => db
  | some sub =>
      if sweepDue sub now then (maybeResetUserSubscriptionWithPlanTx cal db sub plan now).2
      else db

/-- The loop of `ResetDueSubscriptions`; a row without a plan is skipped. -/
def resetDueFrom (now : Int) :
    List UserSubscription → Database → Nat × Database
  | [], db => (0, db)
  | sub :: rest, db =>
      match getSubscriptionPlanByIdTx db sub.planId with
      | .error _ => resetDueFrom now rest db
      | .ok plan =>
          let counted := (db.subscriptions.get? sub.id).any (sweepDue · now)
          let (count, db) := resetDueFrom now rest (resetDueSubscription cal db sub.id plan now)
          (count + counted.toNat, db)

/-- `ResetDueSubscriptions`: how many rows were due, and the database. -/
def resetDueSubscriptions (db : Database) (now : Int) (limit : Int) : Nat × Database :=
  let limit := if limit ≤ 0 then 200 else limit
  let due := (db.subscriptions.rows.filter fun sub => sweepDue sub now ∧ sub.status = .active)
  let subs := (due.insertionSort fun a b => a.nextResetTime ≤ b.nextResetTime).take limit.toNat
  resetDueFrom cal now subs db

/-! ### The audit -/

/-- What a request of the current period has consumed. -/
structure RequestUse where
  requestId : String
  amount : Int

/-- A database, with the account of one subscription since its last reset: the requests
    pre-consumed since, what all other requests were charged or given back, and what the floor of
    the usage cut off. -/
structure PeriodAudit where
  db : Database
  current : Table RequestUse RequestUse.requestId := {}
  (late cut : Int := 0)
  own : Bool := true

/-- The net consumption of the requests pre-consumed since the last reset. -/
def PeriodAudit.net (s : PeriodAudit) : Int := s.current.sumWhere (fun _ => true) RequestUse.amount

def usage (db : Database) (id : Int) : Int := db.subscriptions.column UserSubscription.amountUsed id

/-- What the floor at zero cuts off a give-back. -/
def floorCut (used delta : Int) : Int := max 0 (-(used + delta))

/-- A change of the usage by `delta` for a request.  `own` remembers whether each change so far
    was of a request of the period, and gave back no more than the request had consumed. -/
def PeriodAudit.attribute (s : PeriodAudit) (id : Int) (requestId : String) (delta : Int)
    (db' : Database) : PeriodAudit :=
  let cut := s.cut + floorCut (usage s.db id) delta
  match s.current.get? requestId with
  | some use =>
      let amount := use.amount + delta
      { s with
        db := db', cut := cut, own := s.own && 0 ≤ amount
        current := s.current.set { requestId := requestId, amount := amount } }
  | none => { s with db := db', cut := cut, late := s.late + delta, own := s.own && delta = 0 }

/-- The account after a transaction that may have started a new period. -/
def PeriodAudit.reopen (s : PeriodAudit) (starts : Bool) (db' : Database) : PeriodAudit :=
  if starts then { db := db' } else { s with db := db' }

def PeriodAudit.charge (s : PeriodAudit) (requestId : String) (amount : Int) : PeriodAudit :=
  { s with current := s.current.set { requestId := requestId, amount := amount } }

/-- A reset is due: `maybeResetUserSubscriptionWithPlanTx` advances. -/
def resetDue (sub : UserSubscription) (plan : SubscriptionPlan) (now : Int) : Bool :=
  let base := if sub.lastResetTime ≤ 0 then sub.startTime else sub.lastResetTime
  ¬ (0 < sub.nextResetTime ∧ now < sub.nextResetTime) ∧ plan.quotaResetPeriod ≠ .never ∧
    (advanceReset cal plan sub.endTime now (now - base).toNat false base
      (calcNextResetTime cal base plan sub.endTime)).1

/-- A pre-consume started a new period of a subscription it looked at: a reset was due, and the
    row has another reset time. -/
def startsPeriod (now : Int) (db db' : Database) (id : Int) : Bool :=
  match db.subscriptions.get? id, db'.subscriptions.get? id with
  | some sub, some sub' =>
      (db.plans.get? sub.planId).any (resetDue cal sub · now) ∧
        sub'.lastResetTime ≠ sub.lastResetTime
  | _, _ => false

/-- A transaction on the usage of subscriptions; a change says which request it is of. -/
inductive PeriodStep where
  | preConsume (requestId : String) (userId amount now : Int)
  | change (requestId : String) (subscriptionId delta : Int)
  | refund (requestId : String)
  | resetDue (subscriptionId : Int) (plan : SubscriptionPlan) (now : Int)
  | adminResetUser (userId planId now : Int) (advanceResetTime : Bool)
  | adminResetPlan (planId now : Int) (advanceResetTime : Bool)

/-- An admin reset reaches the subscription. -/
def adminMatches (db : Database) (id planId now : Int) (p : UserSubscription → Bool) : Bool :=
  id ∈ (planSubscriptions db planId now p).map UserSubscription.id

/-- One transaction, with the account of subscription `id`. -/
def periodAudit (id : Int) (s : PeriodAudit) : PeriodStep → PeriodAudit
  | .preConsume requestId userId amount now =>
      match preConsumeUserSubscription cal s.db requestId userId amount now with
      | .error _ => s
      | .ok (res, db') =>
          let s' := s.reopen (startsPeriod cal now s.db db' id) db'
          -- a request that has a record already is charged nothing
          if res.userSubscriptionId = id ∧ s.db.preConsumeRecords.get? requestId = none then
            s'.charge requestId amount
          else s'
  | .change requestId subscriptionId delta =>
      match postConsumeUserSubscriptionDeltaTx s.db subscriptionId delta with
      | .error _ => s
      | .ok db' =>
          if subscriptionId = id then s.attribute id requestId delta db' else { s with db := db' }
  | .refund requestId =>
      match s.db.preConsumeRecords.get? requestId,
          refundSubscriptionPreConsumeTx s.db requestId with
      | some record, .ok (_, db') =>
          if record.userSubscriptionId = id ∧ record.status ≠ .refunded then
            s.attribute id requestId (-record.preConsumed) db'
          else { s with db := db' }
      | _, _ => s
  | .resetDue subscriptionId plan now =>
      s.reopen (subscriptionId = id ∧ (s.db.subscriptions.get? id).any
          fun sub => sweepDue sub now && resetDue cal sub plan now)
        (resetDueSubscription cal s.db subscriptionId plan now)
  | .adminResetUser userId planId now advance =>
      match adminResetUserSubscriptionsByPlan cal s.db userId planId now advance with
      | .error _ => s
      | .ok (_, db') =>
          s.reopen (adminMatches s.db id planId now fun sub => sub.userId = userId) db'
  | .adminResetPlan planId now advance =>
      match adminResetPlanSubscriptions cal s.db planId now advance with
      | .error _ => s
      | .ok (_, db') => s.reopen (adminMatches s.db id planId now fun _ => true) db'

@[simp] theorem reopen_db (s : PeriodAudit) (starts : Bool) (db' : Database) :
    (s.reopen starts db').db = db' := by
  cases starts <;> rfl

/-- **The usage of the current period**: within its bounds, and the net consumption of the requests
    of the period together with what other requests changed since and what the floor cut off; the
    net consumption alone while every change was of a request of the period and gave back no more
    than it had consumed. -/
structure PeriodUsage (id : Int) (s : PeriodAudit) : Prop where
  bounded : ∀ sub, s.db.subscriptions.get? id = some sub →
    0 ≤ sub.amountUsed ∧ (0 < sub.amountTotal → sub.amountUsed ≤ sub.amountTotal)
  exact : usage s.db id = s.net + s.late + s.cut
  own : s.own = true → usage s.db id = s.net

/-! ### A reset -/

section Reset

variable {cal} {plan : SubscriptionPlan} {now : Int}

theorem le_advanceReset_base (endTime : Int) (fuel : Nat) (advanced : Bool) (base next : Int)
    (hnext : 0 < next → base < next) :
    base ≤ (advanceReset cal plan endTime now fuel advanced base next).2.1 := by
  induction fuel generalizing advanced base next with
  | zero => exact le_refl base
  | succ fuel ih =>
    unfold advanceReset
    split
    · rename_i hgo
      have hle := ih true next (calcNextResetTime cal next plan endTime) lt_calcNextResetTime
      omega
    · exact le_refl base

/-- A loop that advanced went at least to the first reset time. -/
theorem next_le_of_advanced (cal : Calendar) (plan : SubscriptionPlan) (now endTime : Int)
    (fuel : Nat)
    (base next : Int) (h : (advanceReset cal plan endTime now fuel false base next).1 = true) :
    0 < next ∧ next ≤ (advanceReset cal plan endTime now fuel false base next).2.1 := by
  cases fuel with
  | zero => cases h
  | succ fuel =>
    unfold advanceReset at h ⊢
    split_ifs at h with hgo
    rw [if_pos hgo]
    exact ⟨hgo.1, le_advanceReset_base endTime fuel true next _ lt_calcNextResetTime⟩

/-- What `maybeResetUserSubscriptionWithPlanTx` does to a row. -/
theorem resetRow_cases (cal : Calendar) (sub : UserSubscription) (plan : SubscriptionPlan)
    (now : Int) :
    (resetRow cal sub plan now).amountTotal = sub.amountTotal ∧
      (resetDue cal sub plan now = true ∧ (resetRow cal sub plan now).amountUsed = 0 ∧
          sub.lastResetTime < (resetRow cal sub plan now).lastResetTime ∨
        resetDue cal sub plan now = false ∧ (resetRow cal sub plan now).amountUsed =
          sub.amountUsed) := by
  unfold resetRow resetDue
  dsimp only
  by_cases hwait : 0 < sub.nextResetTime ∧ now < sub.nextResetTime
  · simp [hwait]
  by_cases hnever : plan.quotaResetPeriod = .never
  · simp [hnever]
  rw [if_neg hwait, if_neg hnever]
  generalize hbase : (if sub.lastResetTime ≤ 0 then sub.startTime else sub.lastResetTime) = base
  have hadvanced := next_le_of_advanced cal plan now sub.endTime (now - base).toNat base
    (calcNextResetTime cal base plan sub.endTime)
  cases hloop : advanceReset cal plan sub.endTime now (now - base).toNat false base
      (calcNextResetTime cal base plan sub.endTime) with
  | mk advanced rest =>
  obtain ⟨base', next'⟩ := rest
  rw [hloop] at hadvanced
  cases advanced with
  | false =>
    dsimp only
    split <;> simp
  | true =>
    obtain ⟨hpos, hle⟩ := hadvanced rfl
    replace hle : _ ≤ base' := hle
    have hlt := lt_calcNextResetTime hpos
    refine ⟨rfl, .inl ⟨?_, rfl, ?_⟩⟩
    · simp [hwait, hnever]
    · -- the new reset time is positive, and later than the old base
      show sub.lastResetTime < base'
      split at hbase <;> omega

/-- **A reset is made once.** Looked at again at the same time, the row stays as it is. -/
theorem resetRow_again (cal : Calendar) (sub : UserSubscription) (plan : SubscriptionPlan)
    (now : Int) :
    resetRow cal (resetRow cal sub plan now) plan now = resetRow cal sub plan now := by
  generalize hrow : resetRow cal sub plan now = row
  have hfirst := hrow
  unfold resetRow at hrow
  split at hrow
  · exact hrow ▸ hfirst
  split at hrow
  · exact hrow ▸ hfirst
  next hnever =>
  dsimp only at hrow
  generalize (if sub.lastResetTime ≤ 0 then sub.startTime else sub.lastResetTime) = base at hrow
  have hdone := advanceReset_done cal plan sub.endTime now (now - base).toNat false base (by omega)
  have hadvanced := next_le_of_advanced cal plan now sub.endTime (now - base).toNat base
    (calcNextResetTime cal base plan sub.endTime)
  dsimp only at hdone
  split at hrow
  · next base' next' hloop =>
    rw [hloop] at hdone
    split at hrow
    · next hset =>
      subst hrow
      exact if_pos ⟨hset.2, not_le.mp fun hle => hdone.1 ⟨hset.2, hle⟩⟩
    · exact hrow ▸ hfirst
  · next base' next' hloop =>
    rw [hloop] at hdone hadvanced
    obtain ⟨hdone, hnext⟩ := hdone
    subst hrow
    by_cases hpos : 0 < next'
    · exact if_pos ⟨hpos, not_le.mp fun hle => hdone ⟨hpos, hle⟩⟩
    · -- the subscription ends before another period, so the loop is not entered again
      obtain ⟨hbase, hle⟩ := hadvanced rfl
      have hstop : ∀ fuel, advanceReset cal plan sub.endTime now fuel false base' next' =
        (false, base', next') := by
        intro fuel
        cases fuel <;> simp [advanceReset, hpos]
      simp only at hnext hle
      simp [resetRow, UserSubscription.cleared, hnever, (hbase.trans_le hle).not_ge, ← hnext, hstop,
        hpos]

end Reset

/-- **A sweep is a run of its transactions**, whatever subscription is audited. -/
theorem resetDueSubscriptions_run (id : Int) (s : PeriodAudit) (now limit : Int) :
    ∃ steps, (resetDueSubscriptions cal s.db now limit).2 =
      (run (periodAudit cal id) s steps).db := by
  have hloop : ∀ subs s, ∃ steps, (resetDueFrom cal now subs s.db).2 =
    (run (periodAudit cal id) s steps).db := by
    intro subs
    induction subs with
    | nil => exact fun _ => ⟨[], rfl⟩
    | cons sub rest ih =>
      intro s
      unfold resetDueFrom
      cases getSubscriptionPlanByIdTx s.db sub.planId with
      | error e => exact ih s
      | ok plan =>
        obtain ⟨steps, hsteps⟩ := ih (periodAudit cal id s (.resetDue sub.id plan now))
        rw [periodAudit, reopen_db] at hsteps
        exact ⟨.resetDue sub.id plan now :: steps, hsteps⟩
  exact hloop _ s

/-! ### What a transaction does to one subscription -/

/-- The usage stays within the total. -/
def Bounded (db : Database) (id : Int) : Prop :=
  ∀ sub, db.subscriptions.get? id = some sub → 0 < sub.amountTotal →
    sub.amountUsed ≤ sub.amountTotal

/-- No pre-consume record is dropped. -/
def KeepsRecords (db db' : Database) : Prop :=
  ∀ requestId, (db.preConsumeRecords.get? requestId).isSome →
    (db'.preConsumeRecords.get? requestId).isSome

/-- A transaction left `used` as the usage of the subscription, within the total if it was, and
    dropped no pre-consume record. -/
structure UsageStep (id : Int) (db : Database) (used : Int) (db' : Database) : Prop where
  usage : usage db' id = used
  bounded : Bounded db id → Bounded db' id
  records : KeepsRecords db db'

variable {delta planId userId amount : Int} {requestId : String}
  {res : SubscriptionPreConsumeResult}

section Steps

variable {id : Int} {db db' : Database} {sub : UserSubscription}

theorem usage_of_get? (h : db.subscriptions.get? id = some sub) : usage db id = sub.amountUsed :=
  column_of_get? h _

theorem usage_nonneg (db : Database) (id : Int) : 0 ≤ usage db id := by
  unfold usage column
  cases db.subscriptions.get? id with
  | none => exact le_refl 0
  | some sub => exact sub.amountUsed_nonneg

theorem usageStep_same (hrow : db'.subscriptions.get? id = db.subscriptions.get? id)
    (hrecords : KeepsRecords db db') : UsageStep id db (usage db id) db' where
  usage := by
    unfold usage column
    rw [hrow]
  bounded := by
    intro h sub hsub
    exact h sub (hrow ▸ hsub)
  records := hrecords

theorem usageStep_row {row : UserSubscription} (hrow : db'.subscriptions.get? id = some row)
    (hbounded : Bounded db id → 0 < row.amountTotal → row.amountUsed ≤ row.amountTotal)
    (hrecords : KeepsRecords db db') : UsageStep id db row.amountUsed db' where
  usage := usage_of_get? hrow
  bounded := by
    intro h sub hsub
    obtain rfl : row = sub := Option.some.inj (hrow.symm.trans hsub)
    exact hbounded h
  records := hrecords

/-- A usage change is floored at zero, and refused above the total. -/
theorem usageStep_change (id : Int) {subscriptionId : Int}
    (h : postConsumeUserSubscriptionDeltaTx db subscriptionId delta = .ok db') :
    UsageStep id db
      (if subscriptionId = id then usage db id + delta + floorCut (usage db id) delta
        else usage db id) db' := by
  have hnonneg := usage_nonneg db id
  unfold postConsumeUserSubscriptionDeltaTx at h
  split at h
  · cases h
  split at h
  · rename_i hzero
    cases h
    have hused : (if subscriptionId = id then usage db id + delta + floorCut (usage db id) delta
        else usage db id) = usage db id := by
      unfold floorCut
      split <;> omega
    rw [hused]
    exact usageStep_same rfl fun _ h => h
  · cases hsub : db.subscriptions.get? subscriptionId with
    | none =>
      simp only [hsub] at h
      cases h
    | some sub =>
      have hid : sub.id = subscriptionId := key_of_get? hsub
      simp only [hsub] at h
      split_ifs at h with hroom
      cases h
      by_cases hown : subscriptionId = id
      · subst hown
        have hused : usage db subscriptionId + delta + floorCut (usage db subscriptionId) delta
            = usedAfter sub delta := by
          rw [usage_of_get? hsub]
          unfold floorCut usedAfter
          split <;> omega
        rw [if_pos rfl, hused]
        have hrow : (setAmountUsed db sub (usedAfter sub delta)
            (usedAfter_nonneg sub delta)).subscriptions.get? subscriptionId
            = some { sub with
              amountUsed := usedAfter sub delta
              amountUsed_nonneg := usedAfter_nonneg sub delta } :=
          get?_set_of_eq _ hid
        refine usageStep_row hrow (fun _ htotal => ?_) fun _ h => h
        dsimp only at htotal ⊢
        omega
      · rw [if_neg hown]
        refine usageStep_same (get?_set_of_ne _ ?_) fun _ h => h
        exact fun heq => hown (hid.symm.trans heq)

/-- A refund of a live record is a usage change of what was pre-consumed. -/
theorem usageStep_refund (id : Int) {refunded : Int} {record : SubscriptionPreConsumeRecord}
    (hrecord : db.preConsumeRecords.get? requestId = some record)
    (h : refundSubscriptionPreConsumeTx db requestId = .ok (refunded, db')) :
    UsageStep id db
      (if record.userSubscriptionId = id ∧ record.status ≠ .refunded then
        usage db id + -record.preConsumed + floorCut (usage db id) (-record.preConsumed)
        else usage db id) db' := by
  unfold refundSubscriptionPreConsumeTx at h
  simp only [hrecord] at h
  split at h
  · rename_i hdone
    cases h
    rw [if_neg fun hlive => hlive.2 hdone]
    exact usageStep_same rfl fun _ h => h
  · rename_i hlive
    rw [if_pos record.preConsumed_pos] at h
    obtain ⟨mid, hpost, hrest⟩ := seq_ok.mp h
    cases hrest
    obtain ⟨husage, hbounded, hrecords⟩ := usageStep_change id hpost
    refine ⟨?_, hbounded, fun r hr => ?_⟩
    · refine Eq.trans (b := usage mid id) rfl (husage.trans ?_)
      simp [hlive]
    show ((mid.preConsumeRecords.set _).get? r).isSome
    rw [get?_set]
    split
    · rfl
    · exact hrecords r hr

variable {cal} {plan : SubscriptionPlan} {now : Int}

theorem usageStep_maybeReset (hsub : db.subscriptions.get? id = some sub)
    (hrow : db'.subscriptions.get? id = some (resetRow cal sub plan now))
    (hrecords : KeepsRecords db db') :
    UsageStep id db (if resetDue cal sub plan now then 0 else usage db id) db' := by
  obtain ⟨htotal, ⟨hdue, hused, -⟩ | ⟨hdue, hused⟩⟩ := resetRow_cases cal sub plan now
  · rw [hdue, ← hused]
    exact usageStep_row hrow (fun _ hpos => by omega) hrecords
  rw [hdue, usage_of_get? hsub, ← hused]
  refine usageStep_row hrow (fun hbounded hpos => ?_) hrecords
  have hle := hbounded sub hsub
  omega

theorem usageStep_resetDue (cal : Calendar) (db : Database) (id subscriptionId : Int)
    (plan : SubscriptionPlan) (now : Int) :
    UsageStep id db
      (if subscriptionId = id ∧ (db.subscriptions.get? id).any
          (fun sub => sweepDue sub now && resetDue cal sub plan now) then 0 else usage db id)
      (resetDueSubscription cal db subscriptionId plan now) := by
  unfold resetDueSubscription
  by_cases hown : subscriptionId = id
  · subst hown
    cases hsub : db.subscriptions.get? subscriptionId with
    | none =>
      rw [if_neg (by simp)]
      exact usageStep_same rfl fun _ h => h
    | some sub =>
      have hid : sub.id = subscriptionId := key_of_get? hsub
      cases hdue : sweepDue sub now with
      | false =>
        rw [if_neg (by simp [hdue])]
        simp only [hdue]
        exact usageStep_same rfl fun _ h => h
      | true =>
        simp only [hdue, true_and, Option.any_some]
        refine usageStep_maybeReset hsub ?_ fun _ h => h
        exact get?_set_of_eq _ ((resetRow_id cal sub plan now).trans hid)
  · rw [if_neg fun h => hown h.1]
    cases hsub : db.subscriptions.get? subscriptionId with
    | none => exact usageStep_same rfl fun _ h => h
    | some sub =>
      have hid : sub.id = subscriptionId := key_of_get? hsub
      dsimp only
      split
      · refine usageStep_same (get?_set_of_ne _ ?_) fun _ h => h
        rw [resetRow_id, hid]
        exact hown
      · exact usageStep_same rfl fun _ h => h

/-- An admin reset clears the rows of its list, and no other. -/
theorem usageStep_resetRows (cal : Calendar) (plan : SubscriptionPlan) (now : Int)
    (advance : Bool) (id : Int) (subs : List UserSubscription) (db : Database) :
    UsageStep id db (if id ∈ subs.map UserSubscription.id then 0 else usage db id)
      (resetRows cal plan now advance subs db) := by
  induction subs generalizing db with
  | nil => exact usageStep_same rfl fun _ h => h
  | cons sub rest ih =>
    obtain ⟨hid, hused⟩ : (resetUserSubscription cal sub plan now advance).id = sub.id ∧
        (resetUserSubscription cal sub plan now advance).amountUsed = 0 := by
      unfold resetUserSubscription
      split <;> exact ⟨rfl, rfl⟩
    obtain ⟨husage, hbounded, hrecords⟩ :=
      ih (saveSubscription db (resetUserSubscription cal sub plan now advance))
    have hfirst : UsageStep id db (if sub.id = id then 0 else usage db id)
        (saveSubscription db (resetUserSubscription cal sub plan now advance)) := by
      split_ifs with hown
      · rw [← hused]
        exact usageStep_row (get?_set_of_eq _ (hid.trans hown)) (fun _ hpos => by omega)
          fun _ h => h
      · exact usageStep_same (get?_set_of_ne _ (hid.symm ▸ hown)) fun _ h => h
    refine ⟨?_, fun h => hbounded (hfirst.bounded h), fun r h => hrecords r (hfirst.records r h)⟩
    unfold resetRows
    rw [husage, hfirst.usage, List.map_cons]
    by_cases hmem : id ∈ rest.map UserSubscription.id
    · rw [if_pos hmem, if_pos (List.mem_cons_of_mem _ hmem)]
    · simp [hmem, eq_comm]

variable {advance : Bool}

theorem usageStep_admin {p : UserSubscription → Bool} {subs : List UserSubscription}
    (hperm : subs.Perm (planSubscriptions db planId now p)) :
    UsageStep id db (if adminMatches db id planId now p then 0 else usage db id)
      (resetRows cal plan now advance subs db) := by
  have hstep := usageStep_resetRows cal plan now advance id subs db
  simp only [(hperm.map UserSubscription.id).mem_iff] at hstep
  simp only [adminMatches, decide_eq_true_eq]
  exact hstep

variable {result : SubscriptionResetResult}

theorem usageStep_adminResetUser
    (h : adminResetUserSubscriptionsByPlan cal db userId planId now advance = .ok (result, db')) :
    UsageStep id db
      (if adminMatches db id planId now (fun sub => sub.userId = userId) then 0
        else usage db id) db' := by
  unfold adminResetUserSubscriptionsByPlan at h
  split_ifs at h
  obtain ⟨plan, hplan, hbody⟩ := seq_ok.mp h
  have hid : plan.id = planId := key_of_get? (getSubscriptionPlanByIdTx_ok hplan)
  subst hid
  split at hbody
  · cases hbody
  cases hbody
  exact usageStep_admin (List.perm_insertionSort _ _)

theorem usageStep_adminResetPlan
    (h : adminResetPlanSubscriptions cal db planId now advance = .ok (result, db')) :
    UsageStep id db (if adminMatches db id planId now (fun _ => true) then 0 else usage db id)
      db' := by
  unfold adminResetPlanSubscriptions at h
  split_ifs at h
  obtain ⟨plan, hplan, hbody⟩ := seq_ok.mp h
  have hid : plan.id = planId := key_of_get? (getSubscriptionPlanByIdTx_ok hplan)
  subst hid
  cases hbody
  exact usageStep_admin (List.perm_insertionSort _ _)

theorem startsPeriod_same (hrow : db'.subscriptions.get? id = db.subscriptions.get? id) :
    startsPeriod cal now db db' id = false := by
  unfold startsPeriod
  rw [hrow]
  cases db.subscriptions.get? id with
  | none => rfl
  | some sub => simp

/-- A row that a pre-consume looked at starts a new period exactly when a reset was due. -/
theorem startsPeriod_reset {sub' : UserSubscription} (hsub : db.subscriptions.get? id = some sub)
    (hplan : db.plans.get? sub.planId = some plan) (hsub' : db'.subscriptions.get? id = some sub')
    (hlast : sub'.lastResetTime = (resetRow cal sub plan now).lastResetTime) :
    startsPeriod cal now db db' id = resetDue cal sub plan now := by
  unfold startsPeriod
  simp only [hsub, hsub', hplan, hlast]
  obtain ⟨-, ⟨hdue, -, hlt⟩ | ⟨hdue, -⟩⟩ := resetRow_cases cal sub plan now
  · have hne := hlt.ne'
    simp [hne]
  · simp [hdue]

/-- A pre-consume: a new request adds its amount to the subscription it is charged to, on top of
    a due reset; the other rows it looked at are reset when due. -/
theorem usageStep_preConsume (id : Int)
    (h : preConsumeUserSubscription cal db requestId userId amount now = .ok (res, db')) :
    UsageStep id db
      ((if startsPeriod cal now db db' id then 0 else usage db id)
        + if res.userSubscriptionId = id ∧ db.preConsumeRecords.get? requestId = none then amount
          else 0) db' := by
  rcases preConsumeUserSubscription_ok h with ⟨record, hrecord, -, -, -, rfl⟩
    | ⟨hnone, hcharged, hrow⟩
  · rw [startsPeriod_same rfl]
    simp only [hrecord, reduceCtorEq, and_false, if_false, add_zero]
    exact usageStep_same rfl fun _ h => h
  · have hrecords : KeepsRecords db db' := by
      obtain ⟨record, hset, -⟩ := hcharged.record
      intro r hr
      rw [hset, get?_set]
      split
      · rfl
      · exact hr
    by_cases hown : res.userSubscriptionId = id
    · -- the charged row
      subst hown
      obtain ⟨sub, plan, sub', hsub, hplan, hsub', hlast, htotal, hused, hroom⟩ := hrow
      have hafter : (if startsPeriod cal now db db' res.userSubscriptionId then 0
          else usage db res.userSubscriptionId) = (resetRow cal sub plan now).amountUsed := by
        rw [startsPeriod_reset hsub hplan hsub' hlast]
        obtain ⟨-, ⟨hdue, hcleared, -⟩ | ⟨hdue, hkept⟩⟩ := resetRow_cases cal sub plan now
        · rw [hdue, if_pos rfl, hcleared]
        · rw [hdue, if_neg Bool.false_ne_true, hkept, usage_of_get? hsub]
      rw [hafter, if_pos ⟨rfl, hnone⟩, ← hused]
      exact usageStep_row hsub' (fun _ => hroom) hrecords
    · -- another row: as it was, or reset on the way
      have hzero : (if res.userSubscriptionId = id ∧ db.preConsumeRecords.get? requestId = none
          then amount else 0) = 0 := if_neg fun h => hown h.1
      rw [hzero, add_zero]
      rcases hcharged.others id (Ne.symm hown) with hsame | ⟨sub, plan, hsub, hplan, hreset⟩
      · rw [startsPeriod_same hsame]
        exact usageStep_same hsame hrecords
      · rw [startsPeriod_reset hsub hplan hreset rfl]
        exact usageStep_maybeReset hsub hreset hrecords

end Steps

/-! ### Whole runs -/

/-- The account of a period: exact, and as long as the requests of the period give back no more
    than they consumed, nothing is late or cut off. -/
structure PeriodInv (id : Int) (s : PeriodAudit) : Prop where
  bounded : Bounded s.db id
  exact : usage s.db id = s.net + s.late + s.cut
  recorded : ∀ requestId use, s.current.get? requestId = some use →
    (s.db.preConsumeRecords.get? requestId).isSome
  own : s.own = true → s.late = 0 ∧ s.cut = 0 ∧ ∀ use ∈ s.current.rows, 0 ≤ use.amount

section Invariant

variable {id : Int} {s : PeriodAudit} {db' : Database}

theorem PeriodInv.usage (h : PeriodInv id s) : PeriodUsage id s where
  bounded := fun sub hsub => ⟨sub.amountUsed_nonneg, h.bounded sub hsub⟩
  exact := h.exact
  own := by
    intro hown
    obtain ⟨hlate, hcut, -⟩ := h.own hown
    rw [h.exact, hlate, hcut]
    ring

theorem periodInv_same (hinv : PeriodInv id s) (hstep : UsageStep id s.db (usage s.db id) db') :
    PeriodInv id { s with db := db' } where
  bounded := hstep.bounded hinv.bounded
  exact := hstep.usage.trans hinv.exact
  recorded := fun r use hr => hstep.records r (hinv.recorded r use hr)
  own := hinv.own

theorem periodInv_fresh (hbounded : Bounded db' id) (husage : usage db' id = 0) :
    PeriodInv id { db := db' } :=
  ⟨hbounded, husage, fun _ _ hr => (nomatch hr), fun _ => ⟨rfl, rfl, fun _ huse => nomatch huse⟩⟩

theorem periodInv_reopen {b : Bool} (hinv : PeriodInv id s)
    (hstep : UsageStep id s.db (if b then 0 else usage s.db id) db') :
    PeriodInv id (s.reopen b db') := by
  cases b with
  | true => exact periodInv_fresh (hstep.bounded hinv.bounded) hstep.usage
  | false => exact periodInv_same hinv hstep

theorem periodInv_charge (hbounded : Bounded s.db id)
    (hexact : usage s.db id = s.net + s.late + s.cut + amount)
    (hrecorded : ∀ r use, s.current.get? r = some use → (s.db.preConsumeRecords.get? r).isSome)
    (hown : s.own = true → s.late = 0 ∧ s.cut = 0 ∧ ∀ use ∈ s.current.rows, 0 ≤ use.amount)
    (hfree : s.current.get? requestId = none) (hpos : 0 < amount)
    (hrecord : (s.db.preConsumeRecords.get? requestId).isSome) :
    PeriodInv id (s.charge requestId amount) := by
  refine ⟨hbounded, ?_, fun r use hr => ?_, fun h => ?_⟩
  · show usage s.db id = (s.current.set _).sumWhere _ _ + s.late + s.cut
    rw [sumWhere_set_of_none hfree, hexact]
    show s.net + s.late + s.cut + amount = s.net + amount + s.late + s.cut
    ring
  · simp only [PeriodAudit.charge, get?_set] at hr
    split at hr
    · rename_i heq
      exact heq ▸ hrecord
    · exact hrecorded r use hr
  · obtain ⟨hlate, hcut, hnonneg⟩ := hown h
    refine ⟨hlate, hcut, fun use huse => ?_⟩
    rcases mem_rows_set.mp huse with rfl | ⟨hmem, -⟩
    · exact hpos.le
    · exact hnonneg use hmem

/-- **A change of the usage for a request**, of this period or of an earlier one. -/
theorem periodInv_attribute (hinv : PeriodInv id s) (hstep : UsageStep id s.db
      (usage s.db id + delta + floorCut (usage s.db id) delta) db') :
    PeriodInv id (s.attribute id requestId delta db') := by
  have hexact := hinv.exact
  unfold PeriodAudit.attribute
  cases hused : s.current.get? requestId with
  | none =>
    refine ⟨hstep.bounded hinv.bounded, ?_, fun r use hr => ?_, fun hown => ?_⟩
    · show usage db' id = s.net + (s.late + delta) + (s.cut + _)
      rw [hstep.usage]
      omega
    · exact hstep.records r (hinv.recorded r use hr)
    · simp only [Bool.and_eq_true, decide_eq_true_eq] at hown
      obtain ⟨hlate, hcut, hnonneg⟩ := hinv.own hown.1
      have hused := usage_nonneg s.db id
      have hfloor : floorCut (usage s.db id) delta = 0 := by
        rw [floorCut]
        omega
      refine ⟨?_, ?_, hnonneg⟩
      · rw [hlate, hown.2, add_zero]
      · rw [hcut, hfloor, add_zero]
  | some use =>
    have hnet : (s.current.set { requestId := requestId, amount := use.amount + delta }).sumWhere
        (fun _ => true) RequestUse.amount = s.net + delta := by
      rw [sumWhere_set_of_some hused]
      show s.net - use.amount + (use.amount + delta) = _
      ring
    refine ⟨hstep.bounded hinv.bounded, ?_, fun r other hr => ?_, fun hown => ?_⟩
    · show usage db' id = (s.current.set _).sumWhere _ _ + s.late + (s.cut + _)
      rw [hstep.usage]
      omega
    · rw [get?_set] at hr
      split at hr
      · rename_i heq
        exact hstep.records r (hinv.recorded r use (heq ▸ hused))
      · exact hstep.records r (hinv.recorded r other hr)
    · simp only [Bool.and_eq_true, decide_eq_true_eq] at hown
      obtain ⟨hlate, hcut, hnonneg⟩ := hinv.own hown.1
      have hrows : ∀ x ∈ (s.current.set
          { requestId := requestId, amount := use.amount + delta }).rows, 0 ≤ x.amount := by
        intro x hx
        rcases mem_rows_set.mp hx with rfl | ⟨hmem, -⟩
        · exact hown.2
        · exact hnonneg x hmem
      -- the account stays non-negative, so the floor has nothing to cut
      have hsum := sumWhere_nonneg (p := fun _ => true) fun x hx _ => hrows x hx
      have hfloor : floorCut (usage s.db id) delta = 0 := by
        rw [floorCut]
        omega
      refine ⟨hlate, ?_, hrows⟩
      rw [hcut, hfloor, add_zero]

theorem periodInv_attribute_or {c : Prop} [Decidable c] (hinv : PeriodInv id s)
    (hstep : UsageStep id s.db (if c then usage s.db id + delta + floorCut (usage s.db id) delta
      else usage s.db id) db') :
    PeriodInv id (if c then s.attribute id requestId delta db' else { s with db := db' }) := by
  split_ifs at hstep ⊢
  · exact periodInv_attribute hinv hstep
  · exact periodInv_same hinv hstep

theorem periodInv_preConsumed {cal : Calendar} {now : Int} {starts : Bool} (hinv : PeriodInv id s)
    (h : preConsumeUserSubscription cal s.db requestId userId amount now = .ok (res, db'))
    (hnew : s.db.preConsumeRecords.get? requestId = none)
    (hstep : UsageStep id s.db ((if starts then 0 else usage s.db id) + amount) db') :
    PeriodInv id ((s.reopen starts db').charge requestId amount) := by
  rcases preConsumeUserSubscription_ok h with ⟨record, hrecord, -⟩ | ⟨-, hcharged, -⟩
  · rw [hnew] at hrecord
    cases hrecord
  obtain ⟨record, hset, hid, -⟩ := hcharged.record
  have hstored : (db'.preConsumeRecords.get? requestId).isSome := by
    rw [hset, get?_set_of_eq _ hid]
    rfl
  cases starts with
  | true =>
    refine periodInv_charge (hstep.bounded hinv.bounded) ?_ (fun _ _ hr => nomatch hr)
      (fun _ => ⟨rfl, rfl, fun _ hmem => nomatch hmem⟩) rfl hcharged.amount_pos hstored
    exact hstep.usage
  | false =>
    have hfree : s.current.get? requestId = none := by
      cases hused : s.current.get? requestId with
      | none => rfl
      | some use =>
        have hsome := hinv.recorded requestId use hused
        rw [hnew] at hsome
        cases hsome
    refine periodInv_charge (hstep.bounded hinv.bounded) ?_
      (fun r use hr => hstep.records r (hinv.recorded r use hr)) hinv.own hfree
      hcharged.amount_pos hstored
    show usage db' id = s.net + s.late + s.cut + amount
    rw [← hinv.exact]
    exact hstep.usage

/-- **One transaction.** -/
theorem periodInv_step (s : PeriodAudit) (step : PeriodStep)
    (hinv : PeriodInv id s) : PeriodInv id (periodAudit cal id s step) := by
  cases step with
  | preConsume requestId userId amount now =>
    simp only [periodAudit]
    cases h : preConsumeUserSubscription cal s.db requestId userId amount now with
    | error e => exact hinv
    | ok out =>
      have hstep := usageStep_preConsume id h
      dsimp only
      split
      · rename_i hnew
        rw [if_pos hnew] at hstep
        exact periodInv_preConsumed hinv h hnew.2 hstep
      · rename_i hother
        rw [if_neg hother, add_zero] at hstep
        exact periodInv_reopen hinv hstep
  | change requestId subscriptionId delta =>
    simp only [periodAudit]
    cases h : postConsumeUserSubscriptionDeltaTx s.db subscriptionId delta with
    | error e => exact hinv
    | ok db' => exact periodInv_attribute_or hinv (usageStep_change id h)
  | refund requestId =>
    simp only [periodAudit]
    cases hrecord : s.db.preConsumeRecords.get? requestId with
    | none => exact hinv
    | some record =>
      cases h : refundSubscriptionPreConsumeTx s.db requestId with
      | error e => exact hinv
      | ok out => exact periodInv_attribute_or hinv (usageStep_refund id hrecord h)
  | resetDue subscriptionId plan now =>
    have hstep := usageStep_resetDue cal s.db id subscriptionId plan now
    exact periodInv_reopen hinv (by simpa only [decide_eq_true_eq] using hstep)
  | adminResetUser userId planId now advance =>
    simp only [periodAudit]
    cases h : adminResetUserSubscriptionsByPlan cal s.db userId planId now advance with
    | error e => exact hinv
    | ok out => exact periodInv_reopen hinv (usageStep_adminResetUser h)
  | adminResetPlan planId now advance =>
    simp only [periodAudit]
    cases h : adminResetPlanSubscriptions cal s.db planId now advance with
    | error e => exact hinv
    | ok out => exact periodInv_reopen hinv (usageStep_adminResetPlan h)

end Invariant

/-- **What the usage of a subscription is**, in every state of a run from its start: resets,
    pre-consumes, changes and refunds may come in any order. -/
theorem period_usage (id : Int) (db : Database) (steps : List PeriodStep)
    (hstart : usage db id = 0) : PeriodUsage id (run (periodAudit cal id) { db } steps) := by
  have hbounded : Bounded db id := by
    intro sub hsub htotal
    rw [usage_of_get? hsub] at hstart
    omega
  exact (invariant_run (periodInv_step cal) _ steps (periodInv_fresh hbounded hstart)).usage

/-- A subscription of 1000 that is reset daily. -/
def periodDatabase : Database :=
  { users := .ofList _ [{ id := 3, quota := 0 }]
    plans := .ofList _ [{ id := 1, quotaResetPeriod := .daily }]
    subscriptions := .ofList _
      [{ newSubscription with id := 7, userId := 3, endTime := 900000, nextResetTime := 100000 }] }

/-- A request before a reset and one after it. -/
def acrossReset : List PeriodStep :=
  [.preConsume "old" 3 100 10, .change "old" 7 20, .adminResetPlan 1 20 false,
    .preConsume "new" 3 50 30]

theorem acrossReset_usage :
    usage periodDatabase 7 = 0 ∧
      PeriodUsage 7 (run (periodAudit fixedCalendar 7) { db := periodDatabase } acrossReset) :=
  ⟨by decide, period_usage fixedCalendar 7 periodDatabase acrossReset (by decide)⟩

/-- **A refund of a request of the old period** empties the usage of the new one, which has
    consumed 50. -/
theorem refund_of_old_period :
    let before := run (periodAudit fixedCalendar 7) { db := periodDatabase } acrossReset
    let after := periodAudit fixedCalendar 7 before (.refund "old")
    (usage before.db 7 = 50 ∧ before.net = 50) ∧ usage after.db 7 = 0 ∧ after.net = 50 := by
  decide

end TokenGateway.Billing
