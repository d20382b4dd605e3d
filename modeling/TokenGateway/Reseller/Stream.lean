import TokenGateway.Reseller.Account

namespace TokenGateway.Reseller

open Base Billing ResellerEvent Table List

/-!
# Event streams

The events of one request are a stream: numbered by the version of the request, each
carrying by how much the request changed.  An agent's account contains a prefix of every
stream, up to the version its projection row names.

* `Streams` — the invariant between the requests of an agent, their events and projections;
* `Streams.apply`, `Streams.publish`, `Streams.rebuildPages` — the writers keep it;
* `Streams.published_nonneg` — what is published of the reservations is never negative;
* `Streams.published_of_quiet` — with nothing pending the published sums are the requests'.
-/

/-! ### The invariant -/

def ofRequest (requestId : String) (e : ResellerEvent) : Bool := e.requestId = requestId

/-- The events of a request up to a version. -/
def upTo (requestId : String) (version : Int) (e : ResellerEvent) : Bool :=
  e.requestId = requestId ∧ e.version ≤ version

/-- What the agent is charged for a request; nothing before it settles. -/
def spent (r : ResellerRequest) : Int := r.agentQuota.getD 0

/-- The deltas of every request of the agent add up to a column of the request. -/
def Telescopes (db : Database) (agent : Int) (delta : ResellerEvent → Int)
    (column : ResellerRequest → Int) : Prop :=
  ∀ id r, db.requests.get? id = some r → r.agentUserId = agent →
    db.events.sumWhere (ofRequest id) delta = column r

/-- The streams of an agent: every event and projection is of a stored request; the versions are
    distinct and not ahead of it; the deltas telescope, with no negative reservation on the way; and
    the published events are those up to the projected version. -/
structure Streams (db : Database) (agent : Int) : Prop where
  referenced : ∀ e ∈ db.events.rows, ∃ r, db.requests.get? e.requestId = some r ∧
    r.agentUserId = e.agentUserId
  projected : ∀ id, db.requests.get? id = none → db.projections.get? id = none
  bounded : ∀ e ∈ db.events.rows, ∀ r, db.requests.get? e.requestId = some r →
    r.agentUserId = agent → e.version ≤ r.version
  distinct : ∀ e ∈ db.events.rows, ∀ e' ∈ db.events.rows, e.agentUserId = agent →
    e.requestId = e'.requestId → e.version = e'.version → e.operationId = e'.operationId
  reserve : Telescopes db agent reserveDelta ResellerRequest.reservedQuota
  spend : Telescopes db agent spendDelta spent
  covered : ∀ id r, db.requests.get? id = some r → r.agentUserId = agent →
    ∀ v, 0 ≤ db.events.sumWhere (upTo id v) reserveDelta
  behind : ∀ id r, db.requests.get? id = some r → r.agentUserId = agent →
    projectedVersion db id ≤ r.version
  processed : ∀ e ∈ db.events.rows, e.agentUserId = agent → 0 ≤ e.processedAt ∧
    (0 < e.processedAt ↔ e.version ≤ projectedVersion db e.requestId)

variable {id : String} {r : ResellerRequest} {p : ResellerEvent → Bool}

namespace FactApplied

variable {db db' : Database} {fact : PersonalBillingFact} {next : ResellerRequest}

section

variable (ha : FactApplied db fact next db')
include ha

/-- A request after the fact is the fact's own, or was there before it. -/
theorem request_cases (hr : db'.requests.get? id = some r) :
    (id = fact.requestId ∧ r = next) ∨ (id ≠ fact.requestId ∧ db.requests.get? id = some r) := by
  rw [ha.requests, get?_set, ha.id_eq] at hr
  split at hr
  · rename_i hid
    exact .inl ⟨hid.symm, (Option.some_inj.mp hr).symm⟩
  · rename_i hid
    exact .inr ⟨Ne.symm hid, hr⟩

theorem sum_of_other (hp : p (eventOf (requestOf db fact) next fact) = false)
    (f : ResellerEvent → Int) : db'.events.sumWhere p f = db.events.sumWhere p f := by
  by_cases hagent : 0 < next.agentUserId
  · obtain ⟨hfree, -, hevents⟩ := ha.event hagent
    rw [hevents, sumWhere_set_of_none hfree, hp]
    simp
  · rcases ha.events with ⟨hpos, -⟩ | ⟨-, hevents⟩
    · exact absurd hpos hagent
    · rw [hevents]

end

end FactApplied

variable {e event : ResellerEvent} {delta : ResellerEvent → Int} {a : Int}

namespace Streams

variable {db db' : Database} {agent : Int}

theorem agent_eq (h : Streams db agent)
    (he : e ∈ db.events.rows) (hr : r ∈ db.requests.rows) (hid : e.requestId = r.id) :
    e.agentUserId = r.agentUserId := by
  obtain ⟨r', hr', hagent⟩ := h.referenced e he
  rw [hid, mem_rows.mp hr, Option.some_inj] at hr'
  rw [← hagent, hr']

theorem no_events (h : Streams db agent) (hnone : db.requests.get? id = none) :
    ∀ e ∈ db.events.rows, e.requestId ≠ id := by
  intro e he hid
  obtain ⟨r, hr, -⟩ := h.referenced e he
  rw [hid, hnone] at hr
  cases hr

/-! ### Applying a fact -/

section Apply

variable {fact : PersonalBillingFact} {next : ResellerRequest} {column : ResellerRequest → Int}

section

variable (h : Streams db agent)
include h

/-- The request a fact finds, or starts, carries the sum of the deltas so far. -/
theorem sum_requestOf (htel : Telescopes db agent delta column) (hempty : ∀ id customer agent,
      column { id := id, agentUserId := agent, customerUserId := customer } = 0)
    (hagent : (requestOf db fact).agentUserId = agent) :
    db.events.sumWhere (ofRequest fact.requestId) delta = column (requestOf db fact) := by
  cases hr : db.requests.get? fact.requestId with
  | none =>
    rw [requestOf_of_none hr, hempty]
    exact sumWhere_eq_zero (fun e he => by
      simpa [ofRequest] using h.no_events hr e he) delta
  | some r =>
    rw [requestOf_of_get? hr] at hagent ⊢
    exact htel _ r hr hagent

/-- A telescoping column keeps telescoping under a fact whose event carries its change. -/
theorem telescopes_apply (hpos : 0 < agent) (ha : FactApplied db fact next db')
    (htel : Telescopes db agent delta column) (hempty : ∀ id customer agent,
      column { id := id, agentUserId := agent, customerUserId := customer } = 0)
    (hdelta : delta (eventOf (requestOf db fact) next fact) = column next -
      column (requestOf db fact)) :
    Telescopes db' agent delta column := by
  intro id r hr hagent
  have hframe := nextRequest_frame ha.accepted
  rcases ha.request_cases hr with ⟨rfl, rfl⟩ | ⟨hid, hold⟩
  · have hown : ofRequest fact.requestId (eventOf (requestOf db fact) r fact) = true :=
      decide_eq_true ha.id_eq
    have hsum := h.sum_requestOf htel hempty (hframe.2.1 ▸ hagent)
    obtain ⟨hfree, -, hevents⟩ := ha.event (hagent ▸ hpos)
    rw [hevents, sumWhere_set_of_none hfree, hown, if_pos rfl, hsum, hdelta]
    ring
  · have hother : ofRequest id (eventOf (requestOf db fact) next fact) = false := by
      simpa [ofRequest, eventOf, ha.id_eq] using Ne.symm hid
    rw [ha.sum_of_other hother]
    exact htel id r hold hagent

theorem version_le (hagent : (requestOf db fact).agentUserId = agent)
    (he : e ∈ db.events.rows) (hid : e.requestId = fact.requestId) :
    e.version ≤ (requestOf db fact).version := by
  obtain ⟨r, hr, -⟩ := h.referenced e he
  have hstate := requestOf_of_get? (hid ▸ hr)
  rw [hstate] at hagent ⊢
  exact h.bounded e he r hr hagent

theorem projectedVersion_le (hagent : (requestOf db fact).agentUserId = agent) :
    projectedVersion db fact.requestId ≤ (requestOf db fact).version := by
  cases hr : db.requests.get? fact.requestId with
  | none =>
    rw [requestOf_of_none hr]
    simp [projectedVersion, column, h.projected _ hr]
  | some r =>
    rw [requestOf_of_get? hr] at hagent ⊢
    exact h.behind _ r hr hagent

/-- No prefix of a stream reserves less than nothing: the whole stream reserves what the fact
    asks for, and a proper prefix was there before it. -/
theorem covered_apply (hpos : 0 < agent) (ha : FactApplied db fact next db')
    (hr : db'.requests.get? id = some r) (hagent : r.agentUserId = agent) (v : Int) :
    0 ≤ db'.events.sumWhere (upTo id v) reserveDelta := by
  obtain ⟨-, hkept, -, hversion, -, hreserved⟩ := nextRequest_frame ha.accepted
  rcases ha.request_cases hr with ⟨rfl, rfl⟩ | ⟨hne, hold⟩
  · have hstate : (requestOf db fact).agentUserId = agent := hkept ▸ hagent
    by_cases hv : r.version ≤ v
    · have hall : db'.events.sumWhere (upTo fact.requestId v) reserveDelta
          = db'.events.sumWhere (ofRequest fact.requestId) reserveDelta := by
        refine sumWhere_congr (fun e he => ?_) (fun _ _ _ => rfl)
        by_cases heq : e.requestId = fact.requestId
        · have hle : e.version ≤ r.version := by
            rcases ha.mem_events he with hold | ⟨-, rfl⟩
            · have hbefore := h.version_le hstate hold heq
              omega
            · exact le_refl _
          simp [upTo, ofRequest, hle.trans hv]
        · simp [upTo, ofRequest, heq]
      rw [hall, h.telescopes_apply hpos ha h.reserve (fun _ _ _ => rfl) rfl _ r hr hagent]
      rcases hreserved with heq | heq
      · exact heq ▸ ha.targets_nonneg.2
      · exact le_of_eq heq.symm
    · rw [ha.sum_of_other (by simp [upTo, eventOf, hv])]
      cases hstored : db.requests.get? fact.requestId with
      | none => rw [sumWhere_eq_zero (fun e he => by simp [upTo, h.no_events hstored e he])]
      | some old =>
        rw [requestOf_of_get? hstored] at hstate
        exact h.covered _ old hstored hstate v
  · rw [ha.sum_of_other (by simp [upTo, eventOf, ha.id_eq, Ne.symm hne])]
    exact h.covered id r hold hagent v

/-- **A fact keeps the streams**: it appends the next version of its request. -/
theorem apply (hpos : 0 < agent) (ha : FactApplied db fact next db') : Streams db' agent := by
  obtain ⟨-, hagent, -, hversion, -, hreserved⟩ := nextRequest_frame ha.accepted
  have hid := ha.id_eq
  have hprojections : db'.projections = db.projections := by rw [ha.rest]
  have hprojected : projectedVersion db' = projectedVersion db := by
    funext id
    simp [projectedVersion, hprojections]
  have hnext : db'.requests.get? fact.requestId = some next := by
    rw [ha.requests, get?_set_of_eq _ hid]
  have hkept : ∀ {e : ResellerEvent} {r : ResellerRequest}, e.requestId ≠ fact.requestId →
      db.requests.get? e.requestId = some r → db'.requests.get? e.requestId = some r := by
    intro e r hne hr
    rw [ha.requests, get?_set_of_ne _ (by rw [hid]; exact Ne.symm hne), hr]
  refine ⟨?_, ?_, ?_, ?_, ?_, ?_, ?_, ?_, ?_⟩
  · -- referenced
    intro e he
    rcases ha.mem_events he with hold | ⟨-, rfl⟩
    · obtain ⟨r, hr, hr'⟩ := h.referenced e hold
      by_cases heq : e.requestId = fact.requestId
      · refine ⟨next, heq ▸ hnext, ?_⟩
        rw [hagent, requestOf_of_get? (heq ▸ hr), hr']
      · exact ⟨r, hkept heq hr, hr'⟩
    · exact ⟨next, by simpa only [eventOf, hid] using hnext, rfl⟩
  · -- projected
    intro id hnone
    rw [hprojections]
    rw [ha.requests, get?_set] at hnone
    split_ifs at hnone
    exact h.projected id hnone
  · -- bounded
    intro e he r hr hr'
    rcases ha.mem_events he with hold | ⟨-, rfl⟩
    · rcases ha.request_cases hr with ⟨heq, rfl⟩ | ⟨-, hstored⟩
      · have hle := h.version_le (hagent ▸ hr') hold heq
        omega
      · exact h.bounded e hold r hstored hr'
    · have hown : db'.requests.get? fact.requestId = some r := by
        simpa only [eventOf, hid] using hr
      rw [hnext, Option.some_inj] at hown
      exact le_of_eq (by rw [← hown]; rfl)
  · -- distinct
    intro e he e' he' hea heid hev
    rcases ha.mem_events he with hold | ⟨hpub, rfl⟩
    · rcases ha.mem_events he' with hold' | ⟨hpub, rfl⟩
      · exact h.distinct e hold e' hold' hea heid hev
      · exact absurd ⟨heid, hev⟩ ((ha.event hpub).2.1 e hold)
    · rcases ha.mem_events he' with hold' | ⟨-, rfl⟩
      · exact absurd ⟨heid.symm, hev.symm⟩ ((ha.event hpub).2.1 e' hold')
      · rfl
  · -- reserve
    exact h.telescopes_apply hpos ha h.reserve (fun _ _ _ => rfl) rfl
  · -- spend
    exact h.telescopes_apply hpos ha h.spend (fun _ _ _ => rfl) rfl
  · -- covered
    intro id r hr hr'
    exact h.covered_apply hpos ha hr hr'
  · -- behind
    intro id r hr hr'
    rw [hprojected]
    rcases ha.request_cases hr with ⟨rfl, rfl⟩ | ⟨-, hold⟩
    · have hle := h.projectedVersion_le (hagent ▸ hr')
      omega
    · exact h.behind id r hold hr'
  · -- processed
    intro e he hea
    rw [hprojected]
    rcases ha.mem_events he with hold | ⟨-, rfl⟩
    · exact h.processed e hold hea
    have hle : projectedVersion db fact.requestId ≤ (requestOf db fact).version :=
      h.projectedVersion_le (hagent ▸ hea)
    simp only [eventOf, hid]
    omega

end

end Apply

/-! ### Publishing an event -/

/-- Marking an event processed leaves every sum over the other columns alone. -/
theorem sum_marked (now : Timestamp) (revision : Int)
    (hstored : db.events.get? event.operationId = some event) {f : ResellerEvent → Int}
    (hp : p (processedEvent now revision event) = p event)
    (hf : f (processedEvent now revision event) = f event) :
    (db.events.set (processedEvent now revision event)).sumWhere p f = db.events.sumWhere p f := by
  have hkey : db.events.get? (processedEvent now revision event).operationId = some event := hstored
  rw [sumWhere_set_of_some hkey, hp, hf]
  ring

theorem projectedVersion_set (p : ResellerProjection) (id : String) :
    projectedVersion { db with projections := db.projections.set p } id
      = if p.requestId = id then p.version else projectedVersion db id := by
  unfold projectedVersion column
  rw [get?_set]
  split <;> rfl

/-- **Publishing the next version keeps the streams.** -/
theorem publish (h : Streams db agent) (now : Timestamp)
    (revision : Int) (hstored : db.events.get? event.operationId = some event)
    (hversion : event.version = projectedVersion db event.requestId + 1) :
    Streams { db with
      projections := db.projections.set { requestId := event.requestId, version := event.version }
      events := db.events.set (processedEvent now revision event) } agent := by
  have hmem := mem_of_get? hstored
  -- A row afterwards has the columns of a row before, its processing mark apart.
  have hrow : ∀ {e : ResellerEvent}, e ∈ (db.events.set (processedEvent now revision event)).rows →
      ∃ old ∈ db.events.rows, e.operationId = old.operationId ∧ e.requestId = old.requestId ∧
        e.version = old.version ∧ e.agentUserId = old.agentUserId := by
    intro e he
    rcases mem_rows_set.mp he with rfl | ⟨hold, -⟩
    · exact ⟨event, hmem, rfl, rfl, rfl, rfl⟩
    · exact ⟨e, hold, rfl, rfl, rfl, rfl⟩
  refine ⟨?_, ?_, ?_, ?_, ?_, ?_, ?_, ?_, ?_⟩
  · -- referenced
    intro e he
    obtain ⟨old, hold, -, hid, -, hagent⟩ := hrow he
    rw [hid, hagent]
    exact h.referenced old hold
  · -- projected
    intro id hnone
    have hne : event.requestId ≠ id := h.no_events hnone event hmem
    exact (get?_set_of_ne db.projections hne).trans (h.projected id hnone)
  · -- bounded
    intro e he r hr hagent
    obtain ⟨old, hold, -, hid, hev, -⟩ := hrow he
    rw [hev]
    exact h.bounded old hold r (hid ▸ hr) hagent
  · -- distinct
    intro e he e' he' hagent hid hev
    obtain ⟨old, hold, hop, hoid, hover, hoagent⟩ := hrow he
    obtain ⟨old', hold', hop', hoid', hover', -⟩ := hrow he'
    rw [hop, hop']
    exact h.distinct old hold old' hold' (hoagent ▸ hagent)
      (by rw [← hoid, ← hoid', hid]) (by rw [← hover, ← hover', hev])
  · -- reserve
    intro id r hr hagent
    exact (sum_marked now revision hstored rfl rfl).trans (h.reserve id r hr hagent)
  · -- spend
    intro id r hr hagent
    exact (sum_marked now revision hstored rfl rfl).trans (h.spend id r hr hagent)
  · -- covered
    intro id r hr hagent v
    exact (h.covered id r hr hagent v).trans_eq (sum_marked now revision hstored rfl rfl).symm
  · -- behind
    intro id r hr hagent
    refine (projectedVersion_set _ id).trans_le ?_
    split
    · rename_i hid
      subst hid
      exact h.bounded event hmem r hr hagent
    · exact h.behind id r hr hagent
  · -- processed: the published prefix grows by the one event with the next version
    intro e he hagent
    have hset := @projectedVersion_set db
      { requestId := event.requestId, version := event.version } e.requestId
    refine ⟨?_, ?_⟩
    · rcases mem_rows_set.mp he with rfl | ⟨hold, -⟩
      · exact le_of_lt now.positive
      · exact (h.processed e hold hagent).1
    · refine Iff.trans ?_ (Iff.of_eq (congrArg (e.version ≤ ·) hset.symm))
      rcases mem_rows_set.mp he with rfl | ⟨hold, hne⟩
      · exact iff_of_true now.positive (by simp [processedEvent])
      rw [(h.processed e hold hagent).2]
      split
      · rename_i hid
        dsimp only at hid hne ⊢
        have hother : e.version ≠ event.version := fun hev =>
          hne (h.distinct e hold event hmem hagent hid.symm hev)
        rw [hid] at hversion
        omega
      · rfl

/-! ### Rebuilding the projections -/

/-- `MAX(version)` is the version of a published event, and no published event is ahead. -/
theorem lastPublished_spec (hsome : ∃ e ∈ db.events.rows, isPublished a e ∧ e.requestId = id) :
    (∃ e ∈ db.events.rows, isPublished a e ∧ e.requestId = id ∧ e.version = lastPublished db a id) ∧
      ∀ e ∈ db.events.rows, isPublished a e → e.requestId = id →
        e.version ≤ lastPublished db a id := by
  obtain ⟨e, he, hpub, hid⟩ := hsome
  have hmem : ∀ {x : ResellerEvent}, x ∈ db.events.rows → isPublished a x → x.requestId = id →
      x.version ∈ (db.events.rows.filter fun e => isPublished a e ∧ e.requestId = id).map
        version := by
    intro x hx hxpub hxid
    exact mem_map_of_mem (mem_filter.mpr ⟨hx, by simp [hxpub, hxid]⟩)
  cases hmax : ((db.events.rows.filter fun e => isPublished a e ∧
    e.requestId = id).map version).max? with
  | none =>
    rw [max?_eq_none_iff] at hmax
    have hin := hmem he hpub hid
    rw [hmax] at hin
    cases hin
  | some top =>
    have htop : lastPublished db a id = top := by simp only [lastPublished, hmax, Option.getD_some]
    rw [htop]
    obtain ⟨hattained, hle⟩ := max?_eq_some_iff.mp hmax
    constructor
    · obtain ⟨x, hx, hxv⟩ := mem_map.mp hattained
      obtain ⟨hx, hxp⟩ := mem_filter.mp hx
      simp only [decide_eq_true_eq] at hxp
      exact ⟨x, hx, hxp.1, hxp.2, hxv⟩
    · intro x hx hxpub hxid
      exact hle _ (hmem hx hxpub hxid)

section

variable (h : Streams db agent)
include h

/-- Setting the projection of a request to its last published version keeps the streams. -/
theorem reproject (hsome : ∃ e ∈ db.events.rows, isPublished a e ∧ e.requestId = id) :
    Streams { db with projections := db.projections.set (projectionOf db a id) } agent := by
  obtain ⟨⟨top, htop, htopPub, htopId, htopVersion⟩, hle⟩ := lastPublished_spec hsome
  simp only [isPublished, decide_eq_true_eq] at htopPub
  refine { h with projected := ?_, behind := ?_, processed := ?_ }
  · intro id' hnone
    have hne : id ≠ id' := htopId ▸ h.no_events hnone top htop
    exact (get?_set_of_ne db.projections hne).trans (h.projected id' hnone)
  · intro id' r hr hagent
    refine (projectedVersion_set _ id').trans_le ?_
    split
    · rename_i hid
      dsimp only [projectionOf] at hid ⊢
      rw [← htopVersion]
      exact h.bounded top htop r (by rw [htopId, hid]; exact hr) hagent
    · exact h.behind id' r hr hagent
  · intro e he hagent
    refine ⟨(h.processed e he hagent).1, ?_⟩
    have hset := @projectedVersion_set db (projectionOf db a id) e.requestId
    refine Iff.trans ?_ (Iff.of_eq (congrArg (e.version ≤ ·) hset.symm))
    have hiff := (h.processed e he hagent).2
    split
    · rename_i hid
      dsimp only [projectionOf] at hid ⊢
      have hsame : e.agentUserId = top.agentUserId := by
        obtain ⟨r, hr, hragent⟩ := h.referenced e he
        obtain ⟨r', hr', hragent'⟩ := h.referenced top htop
        rw [htopId, hid, hr, Option.some_inj] at hr'
        rw [← hragent, ← hragent', hr']
      constructor
      · intro hpos
        exact hle e he (by simp [isPublished, hsame, htopPub.1, hpos]) hid.symm
      · -- At most the last published version, which the projection already covered.
        have hcovered := (h.processed top htop (hsame ▸ hagent)).2.mp htopPub.2
        rw [htopId, hid] at hcovered
        omega
    · exact hiff

theorem reproject_page (ids : List String)
    (hsome : ∀ id ∈ ids, ∃ e ∈ db.events.rows, isPublished a e ∧ e.requestId = id) :
    Streams { db with
      projections := (ids.map (projectionOf db a)).foldl set db.projections } agent := by
  induction ids generalizing db with
  | nil => exact h
  | cons id ids ih =>
    exact ih (h.reproject (hsome id mem_cons_self))
      (fun id' hid' => hsome id' (mem_cons_of_mem id hid'))

/-- **The rebuild keeps the streams**, of its own agent and of every other. -/
theorem rebuildPages (a : Int) (pages : Nat) (cursor : String) :
    Streams (rebuildPages a pages cursor db) agent := by
  induction pages generalizing db cursor with
  | zero => exact h
  | succ pages ih =>
    have hpage := h.reproject_page ((publishedRequests db a cursor).take 500)
      (fun id hid => (mem_publishedRequests.mp (mem_of_mem_take hid)).2)
    simp only [Reseller.rebuildPages]
    split
    · exact hpage
    · split
      · exact hpage
      · exact ih hpage _

/-! ### What the account contains -/

/-- The published events of an agent, request by request. -/
theorem published_by_request (f : ResellerEvent → Int) :
    published db agent f = db.requests.sumWhere (fun r => r.agentUserId = agent)
      (fun r => db.events.sumWhere (fun e => isPublished agent e ∧ e.requestId = r.id) f) := by
  refine sumWhere_by_reference db.events db.requests requestId f ?_
  intro e he hpub
  obtain ⟨r, hr, hagent⟩ := h.referenced e he
  simp only [isPublished, decide_eq_true_eq] at hpub
  exact ⟨r, hr, by simp [hagent, hpub.1]⟩

/-- **What is published of the reservations is never negative**: it is a prefix of every
    stream. -/
theorem published_nonneg : 0 ≤ published db agent reserveDelta := by
  rw [h.published_by_request]
  refine sumWhere_nonneg fun r hr hagent => ?_
  rw [decide_eq_true_eq] at hagent
  have hearlier : db.events.sumWhere
      (fun e => isPublished agent e ∧ e.requestId = r.id) reserveDelta
      = db.events.sumWhere (upTo r.id (projectedVersion db r.id)) reserveDelta := by
    refine sumWhere_congr (fun e he => ?_) (fun _ _ _ => rfl)
    by_cases hid : e.requestId = r.id
    · have howner : e.agentUserId = agent := (h.agent_eq he hr hid).trans hagent
      have hiff := (h.processed e he howner).2
      simp [isPublished, upTo, hid, howner, hiff]
    · simp [upTo, hid]
  rw [hearlier]
  exact h.covered r.id r (mem_rows.mp hr) hagent _

/-- **With nothing pending the published deltas add up to the requests.** -/
theorem published_of_quiet
    {column : ResellerRequest → Int} (htel : Telescopes db agent delta column)
    (hquiet : ∀ e ∈ db.events.rows, e.agentUserId = agent → e.processedAt ≠ 0) :
    published db agent delta = db.requests.sumWhere (fun r => r.agentUserId = agent) column := by
  rw [h.published_by_request]
  refine sumWhere_congr (fun _ _ => rfl) fun r hr hagent => ?_
  rw [decide_eq_true_eq] at hagent
  rw [← htel r.id r (mem_rows.mp hr) hagent]
  refine sumWhere_congr (fun e he => ?_) (fun _ _ _ => rfl)
  by_cases hid : e.requestId = r.id
  · have howner : e.agentUserId = agent := (h.agent_eq he hr hid).trans hagent
    have hpos : 0 < e.processedAt :=
      lt_of_le_of_ne (h.processed e he howner).1 (Ne.symm (hquiet e he howner))
    simp [isPublished, ofRequest, howner, hpos]
  · simp [ofRequest, hid]

end

end Streams

end TokenGateway.Reseller
