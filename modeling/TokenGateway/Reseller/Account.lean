import TokenGateway.Reseller.Ledger
import TokenGateway.Billing.Subscription
import Mathlib.Data.List.Dedup
import Mathlib.Data.List.Sort
import Mathlib.Data.String.Basic

namespace TokenGateway.Reseller

open Base Billing List

/-!
# The agent account

An agent's `Balance` and `Reserved` are a read model: the quota adjustments of the account
and the events of its requests, published in batches.  Three transactions write it:

* `adjustResellerQuota` — `model/reseller.go`: an operator adds or subtracts quota;
* `processResellerEvents` — `model/reseller_ledger.go`: publish a batch of pending events;
* `rebuildResellerAccountProjection` — `model/reseller_diagnostics.go`: recompute the account
  from the adjustments and the events already published.
-/

/-! ### Quota adjustments -/

/-- `ResellerQuotaInput`; a `mode` of `none` is a text that names no mode. -/
structure ResellerQuotaInput where
  operationId : String
  mode : Option AdjustmentMode
  quota : Int
  reason : String

/-- The characters of an operation id: ASCII, so that byte lengths and equality agree in
    every database. -/
def operationIdChar (r : Char) : Bool :=
  ('a' ≤ r ∧ r ≤ 'z') ∨ ('A' ≤ r ∧ r ≤ 'Z') ∨ ('0' ≤ r ∧ r ≤ '9') ∨ r = '-' ∨ r = '_' ∨ r = '.' ∨
    r = ':'

/-- The checks of the input, and its mode. -/
def checkQuotaInput (input : ResellerQuotaInput) : Except BillingError AdjustmentMode :=
  if input.operationId.utf8ByteSize = 0 ∨ 64 < input.operationId.utf8ByteSize ∨
      isBlank input.reason ∨ 1000 < input.reason.utf8ByteSize ∨ input.quota ≤ 0 ∨
      maxWalletQuota < input.quota then
    .error .resellerInvalid
  else match input.mode with
    | none => .error .resellerInvalid
    | some mode =>
        if input.operationId.toList.all operationIdChar then .ok mode
        else .error .resellerInvalid

variable (db : Database)

/-- Who may adjust whom: an administrator an agent, an active agent its own customers.  A
    `kind` other than the empty text asks for a target of that kind. -/
def quotaTarget (operatorId userId : Int) (kind : ResellerKind) :
    Except BillingError ResellerIdentity :=
  match db.users.get? operatorId with
  | none => .error .recordNotFound
  | some operator =>
      if ¬ operator.enabled then .error .resellerForbidden
      else match db.identities.get? userId with
        | none => .error .recordNotFound
        | some target =>
            if kind ≠ .ordinary ∧ target.kind ≠ kind then .error .recordNotFound
            else if target.kind = .agent then
              if (db.identities.get? operatorId).isSome ∨ operator.role < 10 then
                .error .resellerForbidden
              else .ok target
            else match db.identities.get? operatorId with
              | none => .error .recordNotFound
              | some parent =>
                  if parent.kind ≠ .agent ∨ ¬ parent.active ∨
                      target.agentUserId ≠ operatorId then .error .recordNotFound
                  else match db.accounts.get? operatorId with
                    | none => .error .recordNotFound
                    | some account =>
                        if account.enabled then .ok target else .error .resellerForbidden

/-- What the target has, and how much of it is reserved: the account of an agent, the wallet
    of a customer. -/
def quotaFunds (target : ResellerKind) (userId : Int) : Except BillingError (Int × Int) :=
  if target = .agent then
    match db.accounts.get? userId with
    | none => .error .recordNotFound
    | some account => .ok (account.balance, account.reserved)
  else
    match db.users.get? userId with
    | none => .error .recordNotFound
    | some user => .ok (user.quota, 0)

/-- `CASE WHEN mode = 'add' THEN quota ELSE -quota END`. -/
def signedQuota (mode : AdjustmentMode) (quota : Int) : Int := if mode = .add then quota else -quota

/-- The bounds of an adjustment: nothing above the wallet limit, nothing that is reserved. -/
def quotaConflicts (target : ResellerKind) (before reserved delta quota : Int) : Bool :=
  maxWalletQuota < before ∨ (target ≠ .agent ∧ before < minWalletQuota) ∨ reserved < 0 ∨
    (0 < delta ∧ maxWalletQuota - delta < before) ∨
    (delta < 0 ∧ (before < quota ∨ before - quota < reserved))

/-- The conditional update of the balance, `WHERE balance = before`. -/
def writeQuota (target : ResellerKind) (userId before after : Int) : Except BillingError Database :=
  if target = .agent then
    match db.accounts.get? userId with
    | none => .error .resellerBalanceConflict
    | some account =>
        if account.balance ≠ before then .error .resellerBalanceConflict
        else
          let account := { account with balance := after, revision := account.revision + 1 }
          .ok { db with accounts := db.accounts.set account }
  else
    match db.users.get? userId with
    | none => .error .resellerBalanceConflict
    | some user =>
        if user.quota ≠ before then .error .resellerBalanceConflict
        else .ok { db with users := db.users.set { user with quota := after } }

/-- `adjustResellerQuota`: the adjustment and the database after it.  The operation key is the
    digest of the operation id; a repeated operation returns the adjustment it made before. -/
def adjustResellerQuota (digest : String → String) (db : Database) (operatorId userId : Int)
    (kind : ResellerKind) (input : ResellerQuotaInput) :
    Except BillingError (ResellerQuotaAdjustment × Database) := do
  let mode ← checkQuotaInput input
  let target ← quotaTarget db operatorId userId kind
  let funds ← quotaFunds db target.kind userId
  match db.adjustments.get? (digest input.operationId) with
  | some receipt =>
      if receipt.operationId ≠ input.operationId ∨ receipt.userId ≠ userId ∨
          receipt.operatorId ≠ operatorId ∨ receipt.mode ≠ mode ∨
          receipt.quota ≠ input.quota ∨ receipt.reason ≠ input.reason then
        .error .resellerOperationConflict
      else .ok (receipt, db)
  | none =>
      let delta := signedQuota mode input.quota
      if quotaConflicts target.kind funds.1 funds.2 delta input.quota then
        .error .resellerBalanceConflict
      else
        let db ← writeQuota db target.kind userId funds.1 (funds.1 + delta)
        let receipt :=
          { operationKey := digest input.operationId, operationId := input.operationId,
            accountKind := target.kind, userId := userId, operatorId := operatorId,
            mode := mode, quota := input.quota, reason := input.reason,
            before := funds.1, after := funds.1 + delta }
        .ok (receipt, { db with adjustments := db.adjustments.set receipt })

/-- What an accepted adjustment wrote: nothing for a repeated operation, the account of an
    agent, or the wallet of a customer. -/
inductive Adjusted (db : Database) (receipt : ResellerQuotaAdjustment) : Database → Prop where
  | repeated : Adjusted db receipt db
  | agent {account : ResellerAccount} (stored : db.accounts.get? receipt.userId = some account)
      (fresh : db.adjustments.get? receipt.operationKey = none)
      (kind : receipt.accountKind = .agent) :
      Adjusted db receipt { db with
        accounts := db.accounts.set { account with
          balance := account.balance + signedQuota receipt.mode receipt.quota
          revision := account.revision + 1 }
        adjustments := db.adjustments.set receipt }
  | customer {users : Table User User.id}
      (fresh : db.adjustments.get? receipt.operationKey = none)
      (kind : receipt.accountKind ≠ .agent) :
      Adjusted db receipt { db with
        users := users
        adjustments := db.adjustments.set receipt }

variable {db} {db' : Database} {operatorId : Int}

theorem adjustResellerQuota_ok {digest : String → String}
    {userId : Int} {kind : ResellerKind} {input : ResellerQuotaInput}
    {receipt : ResellerQuotaAdjustment}
    (h : adjustResellerQuota digest db operatorId userId kind input = .ok (receipt, db')) :
    Adjusted db receipt db' := by
  obtain ⟨mode, -, h⟩ := seq_ok.mp h
  obtain ⟨target, -, h⟩ := seq_ok.mp h
  obtain ⟨⟨before, reserved⟩, hfunds, h⟩ := seq_ok.mp h
  cases hold : db.adjustments.get? (digest input.operationId) with
  | some old =>
    simp only [hold] at h
    split_ifs at h
    cases h
    exact .repeated
  | none =>
    simp only [hold] at h
    split_ifs at h
    obtain ⟨mid, hmid, h⟩ := seq_ok.mp h
    cases h
    unfold writeQuota at hmid
    by_cases hagent : target.kind = .agent
    · rw [if_pos hagent] at hmid
      cases haccount : db.accounts.get? userId with
      | none =>
        simp only [haccount] at hmid
        cases hmid
      | some account =>
        simp only [haccount] at hmid
        split_ifs at hmid with hbefore
        cases hmid
        have hbalance : before = account.balance := (not_not.mp hbefore).symm
        subst hbalance
        exact .agent haccount hold hagent
    · rw [if_neg hagent] at hmid
      cases huser : db.users.get? userId with
      | none =>
        simp only [huser] at hmid
        cases hmid
      | some user =>
        simp only [huser] at hmid
        split_ifs at hmid
        cases hmid
        exact .customer hold hagent

/-! ### Publication of events -/

/-- `common.GetTimestamp()`: seconds of the clock, never the `0` of a pending event. -/
structure Timestamp where
  seconds : Int
  positive : 0 < seconds := by decide

variable (db)

/-- `WHERE processed_at = 0 AND agent_user_id = ? ORDER BY id LIMIT ?`. -/
def pendingBatch (agent limit : Int) : List ResellerEvent :=
  (db.events.rows.filter fun e => e.processedAt = 0 ∧ e.agentUserId = agent).take limit.toNat

/-- A batch on its way into the account: the rows written so far and the totals. -/
structure Publication where
  db : Database
  (reserveDelta spendDelta processed : Int := 0)

/-- An event with its processing mark. -/
def processedEvent (now : Timestamp) (revision : Int) (event : ResellerEvent) : ResellerEvent :=
  { event with processedAt := now.seconds, processedRevision := revision }

/-- `UPDATE … SET processed_at, processed_revision WHERE id = ? AND processed_at = 0`. -/
def markProcessed (event : ResellerEvent) (now : Timestamp) (revision : Int) : Database :=
  match db.events.get? event.operationId with
  | none => db
  | some row =>
      if row.processedAt ≠ 0 then db
      else { db with events := db.events.set (processedEvent now revision row) }

/-- The version of a request that its agent's account contains; `0` before the first. -/
def projectedVersion (requestId : String) : Int :=
  db.projections.column ResellerProjection.version requestId

/-- The body of the publication loop: an event enters the account only as the next version of
    its request; any other stays pending. -/
def publishEvent (now : Timestamp) (revision : Int) (pub : Publication)
    (event : ResellerEvent) : Publication :=
  if event.version ≠ projectedVersion pub.db event.requestId + 1 then pub
  else
    let projection := { requestId := event.requestId, version := event.version }
    let db := { pub.db with projections := pub.db.projections.set projection }
    { db := markProcessed db event now revision
      reserveDelta := pub.reserveDelta + event.reserveDelta
      spendDelta := pub.spendDelta + event.spendDelta
      processed := pub.processed + 1 }

/-- The publication loop over a batch. -/
def publishEvents (now : Timestamp) (revision : Int) (events : List ResellerEvent) : Publication :=
  events.foldl (publishEvent now revision) { db := db }

/-- `account.Reserved + reserveDelta < 0`. -/
def reservedUnderflows (account : ResellerAccount) (pub : Publication) : Bool :=
  account.reserved + pub.reserveDelta < 0

/-- The bounds of the account columns, checked before they are written. -/
def publicationConflicts (account : ResellerAccount) (pub : Publication) : Bool :=
  (0 < pub.spendDelta ∧ account.balance < minInt64 + pub.spendDelta) ∨
    (pub.spendDelta < 0 ∧ maxInt64 + pub.spendDelta < account.balance) ∨
    (0 < pub.reserveDelta ∧ maxInt64 - pub.reserveDelta < account.reserved) ∨
    reservedUnderflows account pub

/-- `ProcessResellerEvents`: the oldest pending event picks the account, whose pending events
    are published up to the limit.  Returns how many were, and the database after it. -/
def processResellerEvents (limit : Int) (now : Timestamp) : Except BillingError (Int × Database) :=
  if limit < 1 ∨ 2000 < limit then .error .resellerInvalid
  else match db.events.rows.find? (fun e => e.processedAt = 0) with
    | none => .ok (0, db)
    | some first =>
        match db.accounts.get? first.agentUserId with
        | none => .error .recordNotFound
        | some account =>
            let pub := publishEvents db now (account.revision + 1)
              (pendingBatch db account.userId limit)
            if pub.processed = 0 then .ok (0, pub.db)
            else if publicationConflicts account pub then .error .resellerConflict
            else
              let account := { account with
                balance := account.balance - pub.spendDelta
                reserved := account.reserved + pub.reserveDelta
                revision := account.revision + 1 }
              .ok (pub.processed, { pub.db with accounts := pub.db.accounts.set account })

/-- An event that is still pending is skipped, or published as the next version. -/
theorem publishEvent_cases (now : Timestamp) (revision : Int) {pub : Publication}
    {event : ResellerEvent} (hstored : pub.db.events.get? event.operationId = some event)
    (hpending : event.processedAt = 0) :
    publishEvent now revision pub event = pub ∨
      (event.version = projectedVersion pub.db event.requestId + 1 ∧
        publishEvent now revision pub event =
          { db := { pub.db with
              projections := pub.db.projections.set
                { requestId := event.requestId, version := event.version }
              events := pub.db.events.set (processedEvent now revision event) }
            reserveDelta := pub.reserveDelta + event.reserveDelta
            spendDelta := pub.spendDelta + event.spendDelta
            processed := pub.processed + 1 }) := by
  unfold publishEvent
  split
  · exact .inl rfl
  · rename_i hversion
    refine .inr ⟨not_not.mp hversion, ?_⟩
    simp [markProcessed, hstored, hpending]

variable {db} in
theorem processResellerEvents_ok {limit count : Int} {now : Timestamp}
    (h : processResellerEvents db limit now = .ok (count, db')) :
    db' = db ∨ ∃ account pub, db.accounts.get? account.userId = some account ∧
      pub = publishEvents db now (account.revision + 1) (pendingBatch db account.userId limit) ∧
      ((pub.processed = 0 ∧ db' = pub.db) ∨
        db' = { pub.db with accounts := pub.db.accounts.set { account with
          balance := account.balance - pub.spendDelta
          reserved := account.reserved + pub.reserveDelta
          revision := account.revision + 1 } }) := by
  unfold processResellerEvents at h
  split at h
  · cases h
  split at h
  · cases h
    exact .inl rfl
  rename_i first _
  cases haccount : db.accounts.get? first.agentUserId with
  | none =>
    simp only [haccount] at h
    cases h
  | some account =>
    simp only [haccount] at h
    right
    refine ⟨account, _, ?_, rfl, ?_⟩
    · rw [Table.key_of_get? haccount, haccount]
    split at h
    · rename_i hzero
      cases h
      exact .inl ⟨hzero, rfl⟩
    · split_ifs at h
      cases h
      exact .inr rfl

/-! ### Sums of facts -/

/-- The signed adjustments of an agent account. -/
def adjusted (agent : Int) : Int :=
  db.adjustments.sumWhere (fun a => a.userId = agent ∧ a.accountKind = .agent)
    (fun a => signedQuota a.mode a.quota)

/-- The events of an agent that its account contains. -/
def isPublished (agent : Int) (e : ResellerEvent) :
    Bool := e.agentUserId = agent ∧ 0 < e.processedAt

/-- A column summed over the published events of an agent. -/
def published (agent : Int) (f : ResellerEvent → Int) : Int :=
  db.events.sumWhere (isPublished agent) f

/-! ### Rebuilding the account -/

def resellerManageTarget (operatorId targetId : Int) (admin : Bool) : Except BillingError Unit :=
  match db.users.get? operatorId with
  | none => .error (.database "record not found")
  | some operator =>
      if ¬ operator.enabled then .error .resellerForbidden
      else if admin then
        if operator.resellerKind ≠ .ordinary ∨ operator.role < 10 then .error .resellerForbidden
        else if (db.identities.get? targetId).any (fun i => i.kind = .agentCustomer) then
          .error .resellerForbidden
        else if (db.users.get? targetId).isNone then .error (.database "record not found")
        else .ok ()
      else if ¬ (db.identities.get? operatorId).any (fun p => p.kind = .agent ∧ p.active) then
        .error .resellerForbidden
      else match db.accounts.get? operatorId with
        | none => .error (.database "record not found")
        | some account =>
            if ¬ account.enabled then .error .resellerForbidden
            else if (db.identities.get? targetId).any
                (fun i => i.kind = .agentCustomer ∧ i.agentUserId = operatorId) then .ok ()
            else .error .recordNotFound

/-- A sum read into an `int64`. -/
def scanInt64 (total : Int) : Except BillingError Int :=
  if total < minInt64 ∨ maxInt64 < total then .error (.database "value out of range")
  else .ok total

/-- `MAX(version)` of the published events of a request. -/
def lastPublished (agent : Int) (requestId : String) : Int :=
  (((db.events.rows.filter fun e => isPublished agent e ∧ e.requestId = requestId).map
    ResellerEvent.version).max?).getD 0

/-- The requests with published events after the cursor, in order. -/
def publishedRequests (agent : Int) (cursor : String) : List String :=
  (((db.events.rows.filter fun e => isPublished agent e ∧ cursor < e.requestId).map
    ResellerEvent.requestId).dedup).insertionSort (· ≤ ·)

/-- The projection of a request that its published events give. -/
def projectionOf (agent : Int) (requestId : String) : ResellerProjection :=
  { requestId := requestId, version := lastPublished db agent requestId }

/-- `SELECT request_id, MAX(version) … GROUP BY request_id ORDER BY request_id LIMIT 500`. -/
def projectionPage (agent : Int) (cursor : String) : List ResellerProjection :=
  ((publishedRequests db agent cursor).take 500).map (projectionOf db agent)

/-- The page loop of the rebuild.  Every full page moves the cursor past an event, so as many
    pages as events are enough (`rebuildPages_projects`). -/
def rebuildPages (agent : Int) : Nat → String → Database → Database
  | 0, _, db => db
  | pages + 1, cursor, db =>
      let page := projectionPage db agent cursor
      let db := { db with projections := page.foldl Table.set db.projections }
      match page.getLast? with
      | none => db
      | some last => if page.length < 500 then db else rebuildPages agent pages last.requestId db

/-- `RebuildResellerAccountProjection`: pending events stay pending. -/
def rebuildResellerAccountProjection (operatorId agentId : Int) :
    Except BillingError Database := do
  resellerManageTarget db operatorId agentId true
  match db.accounts.get? agentId with
  | none => .error .recordNotFound
  | some account =>
      let funding ← scanInt64 (adjusted db agentId)
      let spend ← scanInt64 (published db agentId ResellerEvent.spendDelta)
      let reserve ← scanInt64 (published db agentId ResellerEvent.reserveDelta)
      if reserve < 0 then .error .resellerConflict
      else
        let db := rebuildPages agentId (db.events.rows.length + 1) "" db
        let account := { account with
          balance := funding - spend
          reserved := reserve
          revision := account.revision + 1 }
        .ok { db with accounts := db.accounts.set account }

variable {db} {a : Int} {cursor id : String}

theorem mem_publishedRequests :
    id ∈ publishedRequests db a cursor ↔ cursor < id ∧ ∃ e ∈ db.events.rows, isPublished a e ∧
      e.requestId = id := by
  simp only [publishedRequests, mem_insertionSort, mem_dedup, mem_map, mem_filter,
    decide_eq_true_eq]
  constructor
  · rintro ⟨e, ⟨he, hpub, hlt⟩, rfl⟩
    exact ⟨hlt, e, he, hpub, rfl⟩
  · rintro ⟨hlt, e, he, hpub, rfl⟩
    exact ⟨e, ⟨he, hpub, hlt⟩, rfl⟩

theorem publishedRequests_sorted (db : Database) (a : Int) (cursor : String) :
    (publishedRequests db a cursor).Pairwise (· < ·) := by
  have hsorted := pairwise_insertionSort (· ≤ ·)
    ((db.events.rows.filter fun e => isPublished a e ∧
      cursor < e.requestId).map ResellerEvent.requestId).dedup
  have hnodup : (publishedRequests db a cursor).Nodup :=
    (perm_insertionSort _ _).nodup_iff.mpr (nodup_dedup _)
  exact (hsorted.and hnodup).imp fun hpair => lt_of_le_of_ne hpair.1 hpair.2

/-- One page: the requests on it get their projection, the others keep theirs. -/
theorem get?_projectionPage (db : Database) (a : Int) (ids : List String)
    (t : Table ResellerProjection ResellerProjection.requestId) (id : String) :
    ((ids.map (projectionOf db a)).foldl Table.set t).get? id
      = if id ∈ ids then some (projectionOf db a id) else t.get? id := by
  induction ids generalizing t with
  | nil => simp
  | cons x xs ih =>
    rw [map_cons, foldl_cons, ih]
    grind [Table.get?_set, projectionOf]

variable {last : String}

/-- The requests after the cursor are those of a page, and those after its last request. -/
theorem mem_page_or_after (hlast : ((publishedRequests db a cursor).take 500).getLast? =
      some last) :
    id ∈ publishedRequests db a cursor ↔
      id ∈ (publishedRequests db a cursor).take 500 ∨ id ∈ publishedRequests db a last := by
  have hcursor := mem_publishedRequests.mp (mem_of_mem_take (mem_of_getLast? hlast))
  constructor
  · intro hid
    have hsorted := publishedRequests_sorted db a cursor
    have hsplit := hid
    rw [← take_append_drop 500 (publishedRequests db a cursor)] at hsorted hsplit
    rcases mem_append.mp hsplit with hpage | hrest
    · exact .inl hpage
    · have hlt := (pairwise_append.mp hsorted).2.2 last (mem_of_getLast? hlast) id hrest
      exact .inr (mem_publishedRequests.mpr ⟨hlt, (mem_publishedRequests.mp hid).2⟩)
  · rintro (hpage | hafter)
    · exact mem_of_mem_take hpage
    · have hid := mem_publishedRequests.mp hafter
      exact mem_publishedRequests.mpr ⟨hcursor.1.trans hid.1, hid.2⟩

/-- Moving the cursor to a request with a published event leaves fewer events after it. -/
theorem publishedAfter_lt
    (h : cursor < last ∧ ∃ e ∈ db.events.rows, isPublished a e ∧ e.requestId = last) :
    (db.events.rows.filter fun e => isPublished a e ∧ last < e.requestId).length
      < (db.events.rows.filter fun e => isPublished a e ∧ cursor < e.requestId).length := by
  obtain ⟨hlt, e, he, hpub, hid⟩ := h
  have hsub : (db.events.rows.filter fun e => isPublished a e ∧ last < e.requestId)
      = (db.events.rows.filter fun e => isPublished a e ∧ cursor < e.requestId).filter
          (fun e => last < e.requestId) := by
    rw [filter_filter]
    refine filter_congr fun x _ => ?_
    by_cases hx : last < x.requestId
    · simp [hx, hlt.trans]
    · simp [hx]
  rw [hsub, length_filter_lt_length_iff_exists]
  exact ⟨e, mem_filter.mpr ⟨he, by simp [hpub, hid, hlt]⟩, by simp [hid]⟩

/-- **The page loop is complete**: every request with a published event after the cursor gets
    its projection, and no other projection changes. -/
theorem rebuildPages_projects (a : Int) (pages : Nat) (cursor : String) (db : Database)
    (hpages : (db.events.rows.filter fun e => isPublished a e ∧ cursor < e.requestId).length <
      pages) (id : String) :
    (rebuildPages a pages cursor db).projections.get? id
      = if id ∈ publishedRequests db a cursor then some (projectionOf db a id)
        else db.projections.get? id := by
  induction pages generalizing cursor db with
  | zero => omega
  | succ pages ih =>
    have hpage := get?_projectionPage db a ((publishedRequests db a cursor).take 500) db.projections
      id
    cases hlast : ((publishedRequests db a cursor).take 500).getLast? with
    | none =>
      have hempty : publishedRequests db a cursor = [] := by simpa using hlast
      simp [rebuildPages, projectionPage, hempty]
    | some last =>
      have hmem := (mem_publishedRequests.mp (mem_of_mem_take (mem_of_getLast? hlast)))
      simp only [rebuildPages, projectionPage, getLast?_map, hlast, Option.map_some, length_map,
        length_take]
      split
      · -- The last page holds all that is left.
        rw [hpage, take_of_length_le (by omega)]
      · -- A full page: the next one starts after `last`, with fewer events to go.
        refine (ih last _ ?_).trans ?_
        · exact Nat.lt_of_lt_of_le (publishedAfter_lt hmem) (Nat.lt_succ_iff.mp hpages)
        show (if id ∈ publishedRequests db a last then some (projectionOf db a id) else _) = _
        grind [mem_page_or_after]

theorem rebuildPages_rest (agent : Int) (pages : Nat) (cursor : String) (db : Database) :
    rebuildPages agent pages cursor db
      = { db with projections := (rebuildPages agent pages cursor db).projections } := by
  induction pages generalizing cursor db with
  | zero => rfl
  | succ pages ih =>
    simp only [rebuildPages]
    split
    · rfl
    · split
      · rfl
      · rw [ih]

theorem scanInt64_ok {total read : Int} (h : scanInt64 total = .ok read) : read = total := by
  unfold scanInt64 at h
  split_ifs at h
  cases h
  rfl

theorem rebuildResellerAccountProjection_ok {agentId : Int}
    (h : rebuildResellerAccountProjection db operatorId agentId = .ok db') :
    ∃ account rebuilt, db.accounts.get? agentId = some account ∧
      rebuilt = rebuildPages agentId (db.events.rows.length + 1) "" db ∧
      db' = { rebuilt with accounts := rebuilt.accounts.set { account with
        balance := adjusted db agentId - published db agentId ResellerEvent.spendDelta
        reserved := published db agentId ResellerEvent.reserveDelta
        revision := account.revision + 1 } } := by
  obtain ⟨-, -, h⟩ := seq_ok.mp h
  cases haccount : db.accounts.get? agentId with
  | none =>
    simp only [haccount] at h
    cases h
  | some account =>
    simp only [haccount] at h
    obtain ⟨funding, hfunding, h⟩ := seq_ok.mp h
    obtain ⟨spend, hspend, h⟩ := seq_ok.mp h
    obtain ⟨reserve, hreserve, h⟩ := seq_ok.mp h
    split_ifs at h
    cases h
    rw [scanInt64_ok hfunding, scanInt64_ok hspend, scanInt64_ok hreserve]
    exact ⟨account, _, rfl, rfl, rfl⟩

end TokenGateway.Reseller
