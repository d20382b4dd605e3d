import TokenGateway.Reseller.Stream

namespace TokenGateway.Reseller

open Base Billing Option

/-!
# The life cycle of a request

Facts of any kind and dispatches, in any order.  `applyPersonalBillingFactTx` refuses two
pairs of state and kind only, so what a request goes through is decided by its callers:

* `LifeCycleKept` — reserved or charged, never both; `refunded` is terminal; a refunded
  request is never charged more;
* `RespectsLifeCycle` — the condition on the facts that keeps it that way;
* `lifeCycle_kept` — in every run whose facts respect it;
* `lifeCycle_broken` — two short runs whose facts do not.
-/

/-! ### Steps -/

/-- What moves a request from state to state. -/
inductive RequestStep where
  | apply (fact : PersonalBillingFact)
  | dispatch (requestId : String) (userId : Int)
  deriving DecidableEq

/-- The database after a step; a refused one leaves it as it was. -/
def requestStep (db : Database) : RequestStep → Database
  | .apply fact => commit db (applyPersonalBillingFactTx db (some fact))
  | .dispatch requestId userId => commit db (markPersonalRequestDispatched db requestId userId)

/-! ### The property and the condition -/

/-- What the customer is charged for a request; nothing before it settles. -/
def charged (r : ResellerRequest) : Int := r.customerQuota.getD 0

/-- Nothing is charged: the quotas are absent or zero. -/
def Uncharged (r : ResellerRequest) : Prop := charged r = 0 ∧ spent r = 0

instance (r : ResellerRequest) : Decidable (Uncharged r) := inferInstanceAs (Decidable (_ ∧ _))

/-- A refund of the request was accepted. -/
def refundAccepted (db : Database) (id : String) : Bool :=
  db.receipts.rows.any fun receipt => receipt.fact.requestId = id ∧ receipt.fact.kind = .refund

/-- What a step has to keep of the request `id`. -/
structure LifeCycleKept (id : String) (db db' : Database) : Prop where
  exclusive : ∀ r', db'.requests.get? id = some r' → 0 < r'.reservedQuota → Uncharged r'
  terminal : ∀ r, db.requests.get? id = some r → r.state = .refunded → db'.requests.get? id = some r
  shrinking : refundAccepted db id → ∀ r, db.requests.get? id = some r →
    ∃ r', db'.requests.get? id = some r' ∧ charged r' ≤ charged r ∧ spent r' ≤ spent r

/-- A fact that the guards let through reserves only what is not charged, and settles a
    refunded request only downwards. -/
def RespectsLifeCycle (id : String) (db : Database) : RequestStep → Prop
  | .dispatch _ _ => True
  | .apply fact =>
      fact.requestId = id → db.receipts.get? fact.operationId = none →
        factConflicts (requestOf db fact) fact = false →
          (fact.kind = .reserve ∨ fact.kind = .pending → 0 < fact.agentTarget →
            Uncharged (requestOf db fact)) ∧
          (fact.kind = .settle → refundAccepted db id →
            fact.customerTarget ≤ charged (requestOf db fact) ∧
              fact.agentTarget ≤ spent (requestOf db fact))

instance (id : String) (db : Database) : (step : RequestStep) →
    Decidable (RespectsLifeCycle id db step)
  | .dispatch _ _ => isTrue trivial
  | .apply _ => inferInstanceAs (Decidable (_ → _ → _ → _ ∧ _))

/-! ### The quotas a fact leaves -/

variable {state : ResellerRequest} {fact : PersonalBillingFact}

/-- The three ways a fact moves the quotas of its request. -/
inductive QuotasMoved (state : ResellerRequest) (fact : PersonalBillingFact)
    (next : ResellerRequest) : Prop where
  | reserved (kind : fact.kind = .reserve ∨ fact.kind = .pending)
      (reserved : next.reservedQuota = fact.agentTarget)
      (customer : next.customerQuota = state.customerQuota)
      (agent : next.agentQuota = state.agentQuota)
  | settled (kind : fact.kind = .settle) (reserved : next.reservedQuota = 0)
      (customer : next.customerQuota = some fact.customerTarget)
      (agent : next.agentQuota = some fact.agentTarget)
  | refunded (kind : fact.kind = .refund) (bound : refundExceeds state fact = false)
      (reserved : next.reservedQuota = 0)
      (customer : next.customerQuota = some fact.customerTarget)
      (agent : next.agentQuota = some fact.agentTarget)

variable {next : ResellerRequest}

theorem nextRequest_quotas (h : nextRequest state fact = .ok next) :
    QuotasMoved state fact next := by
  obtain ⟨-, mid, hmid, rfl⟩ := nextRequest_ok h
  unfold nextState at hmid
  split at hmid
  · rename_i hkind
    cases hmid
    exact .reserved (.inl hkind) rfl rfl rfl
  · rename_i hkind
    cases hmid
    exact .reserved (.inr hkind) rfl rfl rfl
  · rename_i hkind
    cases hmid
    exact .settled hkind rfl rfl rfl
  · rename_i hkind
    split at hmid
    · cases hmid
    rename_i hbound
    cases hmid
    exact .refunded hkind (by simpa using hbound) rfl rfl rfl
  · cases hmid

/-- A refund of a charged request charges no more than before. -/
theorem le_of_refundExceeds (hcharged : state.customerQuota.isSome)
    (h : refundExceeds state fact = false) :
    fact.customerTarget ≤ charged state ∧ fact.agentTarget ≤ spent state := by
  obtain ⟨customer, hcustomer⟩ := isSome_iff_exists.mp hcharged
  simp only [refundExceeds, hcustomer, decide_eq_false_iff_not, not_or, not_lt] at h
  refine ⟨?_, h.2.1⟩
  simpa only [charged, hcustomer, getD_some] using h.1

theorem not_refunded_of_accepted (h : nextRequest state fact = .ok next) :
    state.state ≠ .refunded := by
  intro hrefunded
  have hguards := (nextRequest_ok h).1
  simp [factConflicts, hrefunded] at hguards

/-! ### The invariant -/

/-- The request is not reserved and charged at once, and one that was refunded has its
    quotas set. -/
structure CycleInv (id : String) (db : Database) : Prop where
  exclusive : ∀ r, db.requests.get? id = some r → 0 < r.reservedQuota → Uncharged r
  settled : refundAccepted db id → ∀ r, db.requests.get? id = some r → r.customerQuota.isSome
  known : refundAccepted db id → (db.requests.get? id).isSome

section Step

variable {id : String} {db db' : Database}

/-- A step that leaves the request and its refunds alone. -/
theorem CycleInv.idle (h : CycleInv id db) (hrequest : db'.requests.get? id = db.requests.get? id)
    (hrefund : refundAccepted db' id = refundAccepted db id) :
    LifeCycleKept id db db' ∧ CycleInv id db' := by
  refine ⟨⟨?_, ?_, ?_⟩, ?_, ?_, ?_⟩
  · intro r' hr'
    exact h.exclusive r' (hrequest ▸ hr')
  · intro r hr _
    exact hrequest ▸ hr
  · intro _ r hr
    exact ⟨r, hrequest ▸ hr, le_refl _, le_refl _⟩
  · intro r hr
    exact h.exclusive r (hrequest ▸ hr)
  · intro hr r hget
    exact h.settled (hrefund ▸ hr) r (hrequest ▸ hget)
  · intro hr
    exact hrequest ▸ h.known (hrefund ▸ hr)

theorem FactApplied.refundAccepted_eq (ha : FactApplied db fact next db') (id : String) :
    refundAccepted db' id = (refundAccepted db id ||
      decide (fact.requestId = id ∧ fact.kind = .refund)) := by
  obtain ⟨receipt, hop, hfact, hreceipts⟩ := ha.receipts
  have hfresh : db.receipts.get? receipt.operationId = none := hop ▸ ha.unused
  simp [refundAccepted, hreceipts, Table.rows_set_of_none _ hfresh, hfact]

theorem CycleInv.own (h : CycleInv fact.requestId db) (ha : FactApplied db fact next db')
    (hmeets : RespectsLifeCycle fact.requestId db (.apply fact)) :
    LifeCycleKept fact.requestId db db' ∧ CycleInv fact.requestId db' := by
  obtain ⟨hreserves, hsettles⟩ := hmeets rfl ha.unused (nextRequest_ok ha.accepted).1
  have hnext : db'.requests.get? fact.requestId = some next := by
    rw [ha.requests, Table.get?_set_of_eq _ ha.id_eq]
  have hmoved := nextRequest_quotas ha.accepted
  -- The only request to look at is the next one.
  have hexclusive : 0 < next.reservedQuota → Uncharged next := by
    intro hpos
    cases hmoved with
    | reserved hkind hreserved hcustomer hagent =>
      have hzero := hreserves hkind (hreserved ▸ hpos)
      simpa only [Uncharged, charged, spent, hcustomer, hagent] using hzero
    | settled _ hreserved _ _ | refunded _ _ hreserved _ _ => omega
  have hsettled : refundAccepted db' fact.requestId → next.customerQuota.isSome := by
    intro hrefund
    cases hmoved with
    | reserved hkind _ hcustomer _ =>
      rw [ha.refundAccepted_eq] at hrefund
      have hnot : fact.kind ≠ .refund := by rcases hkind with hk | hk <;> simp [hk]
      have hold : refundAccepted db fact.requestId = true := by simpa [hnot] using hrefund
      obtain ⟨r, hr⟩ := isSome_iff_exists.mp (h.known hold)
      rw [hcustomer, requestOf_of_get? hr]
      exact h.settled hold r hr
    | settled _ _ hcustomer _ | refunded _ _ _ hcustomer _ => simp [hcustomer]
  refine ⟨⟨?_, ?_, ?_⟩, ?_, ?_, ?_⟩
  · intro r' hr'
    obtain rfl : next = r' := some_inj.mp (hnext.symm.trans hr')
    exact hexclusive
  · intro r hr hrefunded
    exact absurd (requestOf_of_get? hr ▸ hrefunded) (not_refunded_of_accepted ha.accepted)
  · intro hrefund r hr
    have hstate := requestOf_of_get? hr
    refine ⟨next, hnext, ?_⟩
    cases hmoved with
    | reserved _ _ hcustomer hagent => simp [charged, spent, hcustomer, hagent, hstate]
    | settled hkind _ hcustomer hagent =>
      have hle := hsettles hkind hrefund
      simpa only [charged, spent, hcustomer, hagent, hstate, getD_some] using hle
    | refunded _ hbound _ hcustomer hagent =>
      have hle := le_of_refundExceeds (hstate ▸ h.settled hrefund r hr) hbound
      simpa only [charged, spent, hcustomer, hagent, hstate, getD_some] using hle
  · intro r hr
    obtain rfl : next = r := some_inj.mp (hnext.symm.trans hr)
    exact hexclusive
  · intro hrefund r hr
    obtain rfl : next = r := some_inj.mp (hnext.symm.trans hr)
    exact hsettled hrefund
  · simp [hnext]

theorem CycleInv.dispatch (h : CycleInv id db) {requestId : String} {userId : Int}
    (hdispatch : markPersonalRequestDispatched db requestId userId = .ok db') :
    LifeCycleKept id db db' ∧ CycleInv id db' := by
  unfold markPersonalRequestDispatched at hdispatch
  cases hstate : db.requests.get? requestId with
  | none =>
    simp only [hstate] at hdispatch
    cases hdispatch
  | some state =>
    simp only [hstate] at hdispatch
    split at hdispatch
    · rename_i hreserved
      cases hdispatch
      have hkey : state.id = requestId := Table.key_of_get? hstate
      by_cases hid : requestId = id
      · subst hid
        have hget : (db.requests.set { state with state := .outcomeUnknown }).get? requestId
            = some { state with state := .outcomeUnknown } := Table.get?_set_of_eq _ hkey
        refine ⟨⟨?_, ?_, ?_⟩, ?_, ?_, ?_⟩
        · intro r' hr'
          obtain rfl := some_inj.mp (hget.symm.trans hr')
          exact h.exclusive state hstate
        · intro r hr hrefunded
          obtain rfl : state = r := some_inj.mp (hstate.symm.trans hr)
          rw [hreserved.2] at hrefunded
          cases hrefunded
        · intro _ r hr
          obtain rfl : state = r := some_inj.mp (hstate.symm.trans hr)
          exact ⟨_, hget, le_refl _, le_refl _⟩
        · intro r hr
          obtain rfl := some_inj.mp (hget.symm.trans hr)
          exact h.exclusive state hstate
        · intro hrefund r hr
          obtain rfl := some_inj.mp (hget.symm.trans hr)
          exact h.settled hrefund state hstate
        · intro _
          exact isSome_iff_exists.mpr ⟨_, hget⟩
      · exact h.idle (Table.get?_set_of_ne _ fun heq => hid (hkey.symm.trans heq)) rfl
    · split at hdispatch
      · cases hdispatch
        exact h.idle rfl rfl
      · cases hdispatch

/-- **One step.** -/
theorem CycleInv.step (h : CycleInv id db) (step : RequestStep)
    (hmeets : RespectsLifeCycle id db step) :
    LifeCycleKept id db (requestStep db step) ∧ CycleInv id (requestStep db step) := by
  cases step with
  | dispatch requestId userId =>
    exact commit_of (P := fun db' => LifeCycleKept id db db' ∧ CycleInv id db') (h.idle rfl rfl)
      fun _ hok => h.dispatch hok
  | apply fact =>
    refine commit_of (P := fun db' => LifeCycleKept id db db' ∧ CycleInv id db') (h.idle rfl rfl)
      fun db' hok => ?_
    rcases applyPersonalBillingFactTx_ok hok with ⟨-, rfl⟩ | ⟨next, ha⟩
    · exact h.idle rfl rfl
    by_cases hid : fact.requestId = id
    · subst hid
      exact h.own ha hmeets
    refine h.idle ?_ ?_
    · rw [ha.requests, Table.get?_set_of_ne _ (by rw [ha.id_eq]; exact hid)]
    · rw [ha.refundAccepted_eq]
      simp [hid]

end Step

/-! ### Every run -/

/-- **The life cycle is kept** all along every run, from before the request exists, whose facts
    respect it. -/
theorem lifeCycle_kept {id : String} {db : Database} (hnew : db.requests.get? id = none)
    (hreceipts : refundAccepted db id = false) (steps : List RequestStep)
    (h : Along requestStep (RespectsLifeCycle id) db steps) :
    Along requestStep (fun db step => LifeCycleKept id db (requestStep db step)) db steps := by
  have hinit : CycleInv id db := by
    refine ⟨fun r hr => ?_, fun hrefund => ?_, fun hrefund => ?_⟩
    · rw [hnew] at hr
      cases hr
    all_goals
      rw [hreceipts] at hrefund
      cases hrefund
  exact along_of_invariant (fun _ step hI hC => hI.step step hC) db steps hinit h

/-- A fact of the request `"request"` of customer 3. -/
def cycleFact (operationId : String) (kind : FactKind) (customer agent : Int) : RequestStep :=
  .apply { requestId := "request", operationId := operationId, kind := kind, userId := 3,
           agentUserId := 2, baseQuota := 0, customerTarget := customer, agentTarget := agent }

/-- A request from its reservation to its full refund. -/
def wholeCycle : List RequestStep :=
  [cycleFact "reserve" .reserve 120 80, .dispatch "request" 3, cycleFact "pending" .pending 120 80,
    cycleFact "settle" .settle 90 60, cycleFact "refund" .refund 40 30,
    cycleFact "resettle" .settle 40 20, cycleFact "rest" .refund 0 0]

theorem wholeCycle_kept :
    Along requestStep (fun db step => LifeCycleKept "request" db (requestStep db step)) {}
      wholeCycle :=
  lifeCycle_kept rfl rfl wholeCycle (by decide)

/-- **The life cycle is broken** by a pending fact after the settlement, which reserves what is
    charged, and by a settlement after a refund, which charges again what was refunded. -/
theorem lifeCycle_broken :
    ¬ Along requestStep (fun db step => LifeCycleKept "request" db (requestStep db step)) {}
        [cycleFact "settle" .settle 90 60, cycleFact "pending" .pending 90 60] ∧
      ¬ Along requestStep (fun db step => LifeCycleKept "request" db (requestStep db step)) {}
        [cycleFact "settle" .settle 90 60, cycleFact "refund" .refund 40 30,
          cycleFact "resettle" .settle 90 60] := by
  constructor
  · rintro ⟨-, hkept, -⟩
    exact absurd (hkept.exclusive _ rfl (by decide)) (by decide)
  rintro ⟨-, -, hkept, -⟩
  obtain ⟨r', hr', hle, -⟩ := hkept.shrinking (by decide) _ rfl
  cases hr'
  exact absurd hle (by decide)

end TokenGateway.Reseller
