import TokenGateway.Reseller.Stream

namespace TokenGateway.Reseller

open Base Billing ResellerEvent Table List

/-!
# The account is a projection of the ledger

Facts, publication batches, adjustments and rebuilds in any order, of any agent.  Through
every run from an empty account:

* the balance is the adjustments minus what is published of the charges, and the reserve is
  what is published of the reservations (`AccountProjected`);
* when nothing is pending both are the sums over the requests themselves;
* no batch can drive the reserve below zero;
* a rebuild finds nothing to repair (`rebuild_keeps_account`).
-/

/-! ### Steps -/

/-- The transactions that write the requests, the events or the account of an agent. -/
inductive LedgerStep where
  | apply (fact : PersonalBillingFact)
  | process (limit : Int) (now : Timestamp)
  | adjust (operatorId userId : Int) (kind : ResellerKind) (input : ResellerQuotaInput)
  | rebuild (operatorId agentId : Int)

/-- The database after a step; a step that fails leaves it as it was. -/
def ledgerStep (digest : String → String) (db : Database) : LedgerStep → Database
  | .apply fact => commit db (applyPersonalBillingFactTx db (some fact))
  | .process limit now => commit db ((processResellerEvents db limit now).map Prod.snd)
  | .adjust operatorId userId kind input =>
      commit db ((adjustResellerQuota digest db operatorId userId kind input).map Prod.snd)
  | .rebuild operatorId agentId =>
      commit db (rebuildResellerAccountProjection db operatorId agentId)

/-! ### What the account has to say -/

/-- No event of the agent is pending. -/
def Quiet (db : Database) (agent : Int) : Prop :=
  ∀ e ∈ db.events.rows, e.agentUserId = agent → e.processedAt ≠ 0

/-- The account agrees with the ledger. -/
structure AccountProjected (db : Database) (agent : Int) (account : ResellerAccount) : Prop where
  balance : account.balance = adjusted db agent - published db agent spendDelta
  reserved : account.reserved = published db agent reserveDelta
  reserved_nonneg : 0 ≤ account.reserved
  quiet_balance : Quiet db agent →
    account.balance =
      adjusted db agent - db.requests.sumWhere (fun r => r.agentUserId = agent) spent
  quiet_reserved : Quiet db agent →
    account.reserved = db.requests.sumWhere (fun r => r.agentUserId = agent)
      ResellerRequest.reservedQuota
  /-- Whatever batch of the agent is published next, its reserve stays covered. -/
  covered : ∀ (limit : Int) (now : Timestamp),
    reservedUnderflows account (publishEvents db now (account.revision + 1)
      (pendingBatch db agent limit)) = false

/-- An agent with an empty account: no adjustments and no requests yet.  Other agents may
    have any, as long as their events and projections are of stored requests. -/
structure EmptyAccount (db : Database) (agent : Int) : Prop where
  positive : 0 < agent
  account : ∃ account, db.accounts.get? agent = some account ∧ account.balance = 0 ∧
    account.reserved = 0
  adjustments : ∀ a ∈ db.adjustments.rows, ¬ (a.userId = agent ∧ a.accountKind = .agent)
  requests : ∀ r ∈ db.requests.rows, r.agentUserId ≠ agent
  referenced : ∀ e ∈ db.events.rows, ∃ r, db.requests.get? e.requestId = some r ∧
    r.agentUserId = e.agentUserId
  projected : ∀ id, db.requests.get? id = none → db.projections.get? id = none

/-! ### The invariant -/

variable {db : Database} {agent : Int}

/-- The streams of the agent, and its account as the sum of what is published of them. -/
structure Projection (db : Database) (agent : Int) : Prop where
  positive : 0 < agent
  streams : Streams db agent
  account : ∃ account, db.accounts.get? agent = some account ∧
    account.balance = adjusted db agent - published db agent spendDelta ∧
    account.reserved = published db agent reserveDelta

theorem EmptyAccount.projection (h : EmptyAccount db agent) : Projection db agent := by
  have hnone : ∀ {id : String} {r : ResellerRequest}, db.requests.get? id = some r →
      r.agentUserId = agent → False := fun hr hagent =>
    h.requests _ (mem_of_get? hr) hagent
  have hevents : ∀ e ∈ db.events.rows, e.agentUserId ≠ agent := by
    intro e he hagent
    obtain ⟨r, hr, howner⟩ := h.referenced e he
    exact hnone hr (howner.trans hagent)
  refine ⟨h.positive, ⟨h.referenced, h.projected, ?_, ?_, ?_, ?_, ?_, ?_, ?_⟩, ?_⟩
  · intro e he r hr hagent
    exact (hnone hr hagent).elim
  · intro e he e' he' hagent
    exact absurd hagent (hevents e he)
  iterate 4
    · intro id r hr hagent
      exact (hnone hr hagent).elim
  · intro e he hagent
    exact absurd hagent (hevents e he)
  · obtain ⟨account, haccount, hbalance, hreserved⟩ := h.account
    have hadjusted : adjusted db agent = 0 :=
      sumWhere_eq_zero (fun a ha => by simpa using h.adjustments a ha) _
    have hpublished : ∀ f, published db agent f = 0 := fun f =>
      sumWhere_eq_zero (fun e he => by simp [isPublished, hevents e he]) f
    exact ⟨account, haccount, by rw [hbalance, hadjusted, hpublished]; rfl,
      by rw [hreserved, hpublished]⟩

/-! ### Facts -/

variable {db' : Database}

theorem Projection.apply {fact : PersonalBillingFact} (h : Projection db agent)
    (hfact : applyPersonalBillingFactTx db (some fact) = .ok db') : Projection db' agent := by
  rcases applyPersonalBillingFactTx_ok hfact with ⟨-, rfl⟩ | ⟨next, ha⟩
  · exact h
  have hpublished : ∀ f, published db' agent f = published db agent f := fun f =>
    ha.sum_of_other (by simp [isPublished, eventOf]) f
  have hadjusted : adjusted db' agent = adjusted db agent := by
    rw [ha.rest]
    rfl
  obtain ⟨account, haccount, hbalance, hreserved⟩ := h.account
  refine ⟨h.positive, h.streams.apply h.positive ha, account, ?_, ?_, ?_⟩
  · rw [ha.rest]
    exact haccount
  · rw [hadjusted, hpublished, hbalance]
  · rw [hpublished, hreserved]

/-! ### Publication -/

/-- A batch of `owner` part-way through: the streams hold, what is published of `agent` moved
    by the totals of the batch if it is its own, and only events and projections are written. -/
structure Batched (db : Database) (agent owner : Int) (pub : Publication) : Prop where
  streams : Streams pub.db agent
  reserve : published pub.db agent reserveDelta
    = published db agent reserveDelta + (if owner = agent then pub.reserveDelta else 0)
  spend : published pub.db agent spendDelta
    = published db agent spendDelta + (if owner = agent then pub.spendDelta else 0)
  idle : 0 ≤ pub.processed ∧ (pub.processed = 0 → pub.reserveDelta = 0 ∧ pub.spendDelta = 0)
  rest : pub.db = { db with projections := pub.db.projections, events := pub.db.events }

variable {event : ResellerEvent}

/-- Publishing a pending event adds its columns to the published sums of its agent. -/
theorem published_processed (now : Timestamp) (revision agent : Int)
    (hstored : db.events.get? event.operationId = some event) (hpending : event.processedAt = 0)
    {f : ResellerEvent → Int} (hf : f (processedEvent now revision event) = f event) :
    (db.events.set (processedEvent now revision event)).sumWhere (isPublished agent) f
      = published db agent f + (if event.agentUserId = agent then f event else 0) := by
  have hkey : db.events.get? (processedEvent now revision event).operationId = some event := hstored
  have hbefore : isPublished agent event = false := by simp [isPublished, hpending]
  have hafter : isPublished agent (processedEvent now revision event) =
    decide (event.agentUserId = agent) := by
    simp [isPublished, processedEvent, now.positive]
  rw [sumWhere_set_of_some hkey, hbefore, hafter, hf, published]
  simp

variable {owner : Int} {pub : Publication}

theorem Batched.step (h : Batched db agent owner pub) (now : Timestamp) (revision : Int)
    (hstored : pub.db.events.get? event.operationId = some event) (hpending : event.processedAt = 0)
    (howner : event.agentUserId = owner) :
    Batched db agent owner (publishEvent now revision pub event) := by
  rcases publishEvent_cases now revision hstored hpending with heq | ⟨hversion, heq⟩
  · rw [heq]
    exact h
  rw [heq]
  refine ⟨h.streams.publish now revision hstored hversion, ?_, ?_, ?_, ?_⟩
  · refine (published_processed now revision agent hstored hpending rfl).trans ?_
    rw [h.reserve, howner]
    split <;> ring
  · refine (published_processed now revision agent hstored hpending rfl).trans ?_
    rw [h.spend, howner]
    split <;> ring
  · have hcount := h.idle.1
    exact ⟨by show 0 ≤ pub.processed + 1; omega, fun hzero => by
      change pub.processed + 1 = 0 at hzero
      omega⟩
  · rw [h.rest]

/-- The publication loop: every event of the batch is still as it was read when its turn
    comes, since the operations are distinct. -/
theorem Batched.loop (now : Timestamp) (revision : Int) (events : List ResellerEvent)
    (h : Batched db agent owner pub)
    (hstored : ∀ e ∈ events, pub.db.events.get? e.operationId = some e ∧ e.processedAt = 0 ∧
      e.agentUserId = owner) (hdistinct : (events.map operationId).Nodup) :
    Batched db agent owner (events.foldl (publishEvent now revision) pub) := by
  induction events generalizing pub with
  | nil => exact h
  | cons event events ih =>
    obtain ⟨hget, hpending, howner⟩ := hstored event mem_cons_self
    rw [map_cons, nodup_cons] at hdistinct
    refine ih (h.step now revision hget hpending howner) ?_ hdistinct.2
    intro e he
    obtain ⟨hget', hrest⟩ := hstored e (mem_cons_of_mem event he)
    refine ⟨?_, hrest⟩
    rcases publishEvent_cases now revision hget hpending with heq | ⟨-, heq⟩
    · rw [heq, hget']
    have hne : (processedEvent now revision event).operationId ≠ e.operationId := fun hop =>
      hdistinct.1 ((show event.operationId = e.operationId from hop) ▸ mem_map_of_mem he)
    rw [heq]
    exact (get?_set_of_ne pub.db.events hne).trans hget'

theorem Streams.batched (h : Streams db agent) (owner : Int) (now : Timestamp)
    (revision limit : Int) :
    Batched db agent owner (publishEvents db now revision (pendingBatch db owner limit)) := by
  refine Batched.loop now revision _ ⟨h, by simp, by simp, by simp, rfl⟩ ?_ ?_
  · intro e he
    obtain ⟨hrow, hcond⟩ := mem_filter.mp (mem_of_mem_take he)
    simp only [decide_eq_true_eq] at hcond
    exact ⟨mem_rows.mp hrow, hcond.1, hcond.2⟩
  · exact db.events.nodup.sublist (((take_sublist _ _).trans filter_sublist).map operationId)

theorem Projection.of_account {row : ResellerAccount} (hpos : 0 < agent)
    (hstreams : Streams db agent) (hrow : row.userId = owner) (hown : owner = agent →
      row.balance = adjusted db agent - published db agent spendDelta ∧
        row.reserved = published db agent reserveDelta)
    (hother : owner ≠ agent → ∃ account, db.accounts.get? agent = some account ∧
      account.balance = adjusted db agent - published db agent spendDelta ∧
      account.reserved = published db agent reserveDelta) :
    Projection { db with accounts := db.accounts.set row } agent := by
  refine ⟨hpos, { hstreams with }, ?_⟩
  by_cases howner : owner = agent
  · exact ⟨row, get?_set_of_eq _ (hrow.trans howner), hown howner⟩
  · obtain ⟨account, haccount, hrest⟩ := hother howner
    exact ⟨account, (get?_set_of_ne _ (hrow ▸ howner)).trans haccount, hrest⟩

theorem Projection.process {limit count : Int} {now : Timestamp} (h : Projection db agent)
    (hprocess : processResellerEvents db limit now = .ok (count, db')) : Projection db' agent := by
  rcases processResellerEvents_ok hprocess with rfl | ⟨account, pub, haccount, hpub, hdb⟩
  · exact h
  have hbatch : Batched db agent account.userId pub :=
    hpub ▸ h.streams.batched account.userId now (account.revision + 1) limit
  have haccounts : pub.db.accounts = db.accounts := by rw [hbatch.rest]
  have hadjusted : adjusted pub.db agent = adjusted db agent := by
    rw [hbatch.rest]
    rfl
  obtain ⟨mine, hmine, hbalance, hreserved⟩ := h.account
  rcases hdb with ⟨hzero, rfl⟩ | rfl
  · -- An empty batch: nothing became published.
    obtain ⟨hzeroReserve, hzeroSpend⟩ := hbatch.idle.2 hzero
    refine ⟨h.positive, hbatch.streams, mine, haccounts ▸ hmine, ?_, ?_⟩
    · rw [hadjusted, hbatch.spend, hzeroSpend, ite_self, add_zero, hbalance]
    · rw [hbatch.reserve, hzeroReserve, ite_self, add_zero, hreserved]
  · refine Projection.of_account h.positive hbatch.streams rfl (fun howner => ?_) (fun howner => ?_)
    · rw [howner, hmine, Option.some_inj] at haccount
      subst haccount
      rw [hadjusted, hbatch.spend, hbatch.reserve, if_pos howner, if_pos howner, ← hreserved]
      exact ⟨by simp only [hbalance]; ring, rfl⟩
    · refine ⟨mine, haccounts ▸ hmine, ?_, ?_⟩
      · rw [hadjusted, hbatch.spend, if_neg howner, add_zero, hbalance]
      · rw [hbatch.reserve, if_neg howner, add_zero, hreserved]

/-! ### Adjustments and rebuilds -/

variable {operatorId : Int}

theorem Projection.adjust {digest : String → String} {userId : Int} {kind : ResellerKind}
    {input : ResellerQuotaInput} {receipt : ResellerQuotaAdjustment} (h : Projection db agent)
    (hadjust : adjustResellerQuota digest db operatorId userId kind input = .ok (receipt, db')) :
    Projection db' agent := by
  obtain ⟨mine, hmine, hbalance, hreserved⟩ := h.account
  cases adjustResellerQuota_ok hadjust with
  | repeated => exact h
  | @agent account hstored hfresh hkind =>
    have hadjusted : adjusted { db with adjustments := db.adjustments.set receipt } agent
        = adjusted db agent + (if receipt.userId =
          agent then signedQuota receipt.mode receipt.quota else 0) := by
      refine (sumWhere_set_of_none hfresh _ _).trans ?_
      simp [adjusted, hkind]
    have huser : account.userId = receipt.userId := key_of_get? hstored
    refine @Projection.of_account { db with adjustments := db.adjustments.set receipt } agent
      receipt.userId _ h.positive { h.streams with } huser (fun howner => ?_) (fun howner => ?_)
    · rw [howner, hmine, Option.some_inj] at hstored
      subst hstored
      rw [hadjusted, if_pos howner]
      exact ⟨by simp only [hbalance, published]; ring, hreserved⟩
    · rw [hadjusted, if_neg howner, add_zero]
      exact ⟨mine, hmine, hbalance, hreserved⟩
  | @customer users hfresh hkind =>
    have hadjusted : adjusted { db with users := users, adjustments := db.adjustments.set receipt }
        agent = adjusted db agent := by
      refine (sumWhere_set_of_none hfresh _ _).trans ?_
      simp [adjusted, hkind]
    exact ⟨h.positive, { h.streams with }, mine, hmine, hadjusted ▸ hbalance, hreserved⟩

variable {agentId : Int}

theorem Projection.rebuild (h : Projection db agent)
    (hrebuild : rebuildResellerAccountProjection db operatorId agentId = .ok db') :
    Projection db' agent := by
  obtain ⟨account, rebuilt, haccount, hrebuilt, rfl⟩ := rebuildResellerAccountProjection_ok hrebuild
  have hstreams : Streams rebuilt agent := hrebuilt ▸ h.streams.rebuildPages agentId _ _
  have hrest : rebuilt = { db with projections := rebuilt.projections } := by
    rw [hrebuilt]
    exact rebuildPages_rest _ _ _ _
  have hadjusted : adjusted rebuilt = adjusted db := by
    rw [hrest]
    rfl
  have hpublished : published rebuilt = published db := by
    rw [hrest]
    rfl
  have huser : account.userId = agentId := key_of_get? haccount
  refine Projection.of_account h.positive hstreams huser (fun howner => ?_) (fun _ => ?_)
  · rw [hadjusted, hpublished, howner]
    exact ⟨rfl, rfl⟩
  · rw [hrest]
    exact h.account

/-! ### Every run -/

theorem Projection.step (digest : String → String) (h : Projection db agent) (step : LedgerStep) :
    Projection (ledgerStep digest db step) agent := by
  cases step with
  | apply fact => exact commit_of (P := fun db => Projection db agent) h fun _ hok => h.apply hok
  | process limit now =>
    refine commit_of (P := fun db => Projection db agent) h fun db' hok => ?_
    obtain ⟨⟨count, out⟩, hprocess, rfl⟩ := map_committed.mp hok
    exact h.process hprocess
  | adjust operatorId userId kind input =>
    refine commit_of (P := fun db => Projection db agent) h fun db' hok => ?_
    obtain ⟨⟨receipt, out⟩, hadjust, rfl⟩ := map_committed.mp hok
    exact h.adjust hadjust
  | rebuild operatorId agentId =>
    exact commit_of (P := fun db => Projection db agent) h fun _ hok => h.rebuild hok

theorem Projection.projected (h : Projection db agent) :
    ∃ account, db.accounts.get? agent = some account ∧ AccountProjected db agent account := by
  obtain ⟨account, haccount, hbalance, hreserved⟩ := h.account
  refine ⟨account, haccount, hbalance, hreserved, hreserved ▸ h.streams.published_nonneg, ?_, ?_,
    ?_⟩
  · intro hquiet
    rw [hbalance, h.streams.published_of_quiet h.streams.spend hquiet]
  · intro hquiet
    rw [hreserved, h.streams.published_of_quiet h.streams.reserve hquiet]
  · intro limit now
    -- The batch is a run of the loop, so what would be published is again a sum of prefixes.
    have hbatch := h.streams.batched agent now (account.revision + 1) limit
    have hnonneg := hbatch.streams.published_nonneg
    rw [hbatch.reserve, ← hreserved] at hnonneg
    simpa [reservedUnderflows] using hnonneg

/-- **The account is a projection of the ledger.** From an empty agent account, after any
    interleaving of facts, publication batches, adjustments and rebuilds, the account agrees
    with the ledger. -/
theorem account_projected (digest : String → String) {db : Database} {agent : Int}
    (h : EmptyAccount db agent) (steps : List LedgerStep) :
    ∃ account, (run (ledgerStep digest) db steps).accounts.get? agent = some account ∧
      AccountProjected (run (ledgerStep digest) db steps) agent account :=
  (invariant_run (I := fun db => Projection db agent)
    (fun _ step hI => hI.step digest step) db steps h.projection).projected

/-- An agent (2) with an empty account, its customer (3) and an administrator (1). -/
def agentDatabase : Database :=
  { users := .ofList _ [{ id := 1, quota := 0, role := 100 },
      { id := 2, quota := 0, resellerKind := .agent },
      { id := 3, quota := 5000, resellerKind := .agentCustomer }]
    identities := .ofList _ [{ userId := 2, kind := .agent },
      { userId := 3, kind := .agentCustomer, agentUserId := 2 }]
    accounts := .ofList _ [{ userId := 2 }] }

/-- A fact of the customer's request. -/
def agentFact (operationId : String) (kind : FactKind) (customer agent : Int) :
    PersonalBillingFact :=
  { requestId := "request", operationId := operationId, kind := kind, userId := 3,
    agentUserId := 2, baseQuota := 100, customerTarget := customer, agentTarget := agent }

def agentFunding : ResellerQuotaInput :=
  { operationId := "funding", mode := some .add, quota := 1000, reason := "procurement" }

/-- Quota for the agent, a reservation and its settlement, published around a rebuild. -/
def agentRun : List LedgerStep :=
  [.adjust 1 2 .agent agentFunding,
    .apply (agentFact "reserve" .reserve 120 80), .process 1 { seconds := 1700000000 },
    .apply (agentFact "settle" .settle 90 60), .rebuild 1 2,
    .process 2000 { seconds := 1700000060 }]

theorem agentDatabase_empty : EmptyAccount agentDatabase 2 :=
  ⟨by decide, ⟨{ userId := 2 }, by decide, rfl, rfl⟩, by decide, by decide,
    fun _ he => (not_mem_nil he).elim, fun _ _ => rfl⟩

theorem agentRun_projected :
    ∃ account, (run (ledgerStep id) agentDatabase agentRun).accounts.get? 2 = some account ∧
      AccountProjected (run (ledgerStep id) agentDatabase agentRun) 2 account ∧
      account.balance = 940 ∧ account.reserved = 0 := by
  obtain ⟨account, haccount, hprojected⟩ := account_projected id agentDatabase_empty agentRun
  have hrun : (run (ledgerStep id) agentDatabase agentRun).accounts.get? 2
      = some { userId := 2, balance := 940, reserved := 0, revision := 4 } := by decide
  rw [hrun, Option.some_inj] at haccount
  subst haccount
  exact ⟨_, hrun, hprojected, rfl, rfl⟩

/-- **A rebuild finds nothing to repair.** After any run from an empty account it counts a new
    revision, and leaves the balance and the reserve as they are. -/
theorem rebuild_keeps_account (digest : String → String) (h : EmptyAccount db agent)
    (steps : List LedgerStep) (hrebuild : rebuildResellerAccountProjection
      (run (ledgerStep digest) db steps) operatorId agent = .ok db') :
    db'.accounts.get? agent = ((run (ledgerStep digest) db steps).accounts.get? agent).map
      fun account => { account with revision := account.revision + 1 } := by
  have hprojection : Projection (run (ledgerStep digest) db steps) agent :=
    invariant_run (I := fun db => Projection db agent)
      (fun _ step hI => hI.step digest step) db steps h.projection
  obtain ⟨account, haccount, hbalance, hreserved⟩ := hprojection.account
  obtain ⟨stored, -, hstored, -, rfl⟩ := rebuildResellerAccountProjection_ok hrebuild
  rw [hstored, Option.some_inj] at haccount
  subst haccount
  have huser : stored.userId = agent := key_of_get? hstored
  rw [hstored, ← hbalance, ← hreserved]
  exact get?_set_of_eq _ huser

theorem agentRun_kept :
    ∃ db', rebuildResellerAccountProjection (run (ledgerStep id) agentDatabase agentRun) 1 2 =
      .ok db' ∧
      db'.accounts.get? 2 = some { userId := 2, balance := 940, reserved := 0, revision := 5 } :=
  ⟨_, rfl, @rebuild_keeps_account _ _ _ 1 id agentDatabase_empty agentRun rfl⟩

/-- **A rebuild repairs.** Whatever the account and the projections were, afterwards the
    account is the sum of the facts and every published request is projected at its last
    published version. -/
theorem rebuildResellerAccountProjection_repairs
    (h : rebuildResellerAccountProjection db operatorId agentId = .ok db') :
    (∃ account, db'.accounts.get? agentId = some account ∧
        account.balance = adjusted db agentId - published db agentId spendDelta ∧
        account.reserved = published db agentId reserveDelta) ∧
      ∀ e ∈ db.events.rows, isPublished agentId e → "" < e.requestId →
        db'.projections.get? e.requestId = some (projectionOf db agentId e.requestId) := by
  obtain ⟨account, rebuilt, haccount, rfl, rfl⟩ := rebuildResellerAccountProjection_ok h
  have huser : account.userId = agentId := key_of_get? haccount
  refine ⟨⟨_, get?_set_of_eq _ huser, rfl, rfl⟩, ?_⟩
  intro e he hpub hid
  have hpages := rebuildPages_projects agentId (db.events.rows.length + 1) "" db
    (Nat.lt_succ_of_le (length_filter_le _ _)) e.requestId
  rw [if_pos (mem_publishedRequests.mpr ⟨hid, e, he, hpub, rfl⟩)] at hpages
  exact hpages

/-- The ledger of the run, with its account lost. -/
def lostAccount : Database :=
  { run (ledgerStep id) agentDatabase agentRun with accounts := agentDatabase.accounts }

theorem lostAccount_repaired :
    ∃ db', rebuildResellerAccountProjection lostAccount 1 2 = .ok db' ∧
      ∃ account, db'.accounts.get? 2 = some account ∧ account.balance = 940 ∧
        account.reserved = 0 :=
  ⟨_, rfl, (@rebuildResellerAccountProjection_repairs lostAccount _ 1 2 rfl).1⟩

end TokenGateway.Reseller
