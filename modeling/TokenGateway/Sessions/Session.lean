import TokenGateway.Expression.Host

namespace TokenGateway.Sessions

open Expression

/-!
# Login sessions and their cache

`model/user_session.go`: the calls on one session, as a machine that takes one database statement,
one Redis command or one look at the clock in a step.  A call is a program counter with the locals
that are still alive; between two of its steps any other call may go on and any time may pass.

* `UserSession`, `CacheEntry`, `Store` — the row, its copy in Redis, and the calls in flight;
* `expiration`, `Store.script` — the two halves of `writeUserSessionCache`;
* `Store.stepCall` — one step of a call;
* `Store.step` — a call starts, a call goes on, or time passes.

Times are whole seconds on one clock.  Bulk calls work on batches of sessions; what they do to the
other sessions of a batch shows here only as a delay, as a pass without this session, or as an early
return.  Calls for another user or session never reach this row, and are left out.
-/

/-! ### Rows and entries -/

inductive SessionStatus where
  | active
  | revoking
  | revoked
  deriving DecidableEq

/-- An HMAC digest in hexadecimal.  The empty text stands for a missing digest in the source, and
    the `AfterFind` hook trims what it reads: a digest is neither empty nor changed by that. -/
structure Digest where
  text : String
  nonempty : text ≠ ""
  trimmed : trimSpace text = text
  deriving DecidableEq

structure UserSession where
  (version userAuthVersion : Int)
  status : SessionStatus
  refreshHash : Digest
  previousRefreshHash : Option Digest
  (previousValidUntil lastActiveAt expiresAt revokedAt : Int)
  revokedReason : String
  deriving DecidableEq

/-- `userSessionCacheEntry`. -/
structure CacheEntry where
  (version userAuthVersion : Int)
  status : SessionStatus
  (lastActiveAt expiresAt revokedAt : Int)
  revokedReason : String
  deriving DecidableEq

/-- The condition under which every call takes a session for valid. -/
def Live (status : SessionStatus) (revokedAt expiresAt now : Int) : Prop :=
  status = .active ∧ revokedAt = 0 ∧ now < expiresAt

instance (status : SessionStatus) (revokedAt expiresAt now : Int) :
    Decidable (Live status revokedAt expiresAt now) :=
  inferInstanceAs (Decidable (_ ∧ _ ∧ _))

namespace UserSession

variable (session : UserSession)

def Live (now : Int) : Prop := Sessions.Live session.status session.revokedAt session.expiresAt now

instance (now : Int) : Decidable (session.Live now) :=
  inferInstanceAs (Decidable (Sessions.Live _ _ _ _))

def cacheEntry : CacheEntry where
  version := session.version
  userAuthVersion := session.userAuthVersion
  status := session.status
  lastActiveAt := session.lastActiveAt
  expiresAt := session.expiresAt
  revokedAt := session.revokedAt
  revokedReason := session.revokedReason

/-- The entry of a deny fence, and of the tombstone after a commit. -/
def denyEntry (status : SessionStatus) (now : Int) (reason : String) : CacheEntry :=
  { session.cacheEntry with status, revokedAt := now, revokedReason := reason }

/-- The columns that every revocation sets. -/
def revoke (now : Int) (reason : String) : UserSession :=
  { session with status := .revoked, revokedAt := now, revokedReason := reason }

end UserSession

/-! ### Calls -/

inductive SessionError where
  | invalid
  | inactive
  | refreshInvalid
  | refreshRace
  | refreshReuse
  | database
  | redis
  deriving DecidableEq

/-- The arguments of `RotateUserSessionRefresh`. -/
structure Rotation where
  (presentedHash nextHash : Digest)
  (now graceSeconds : Int)
  deriving DecidableEq

/-- The arguments of `AdvanceUserSessionAuthVersion`. -/
structure Advance where
  (expectedSessionVersion expectedUserAuthVersion nextUserAuthVersion : Int)
  deriving DecidableEq

inductive Op where
  | getUserSessionCached
  | rotateUserSessionRefresh (rotation : Rotation)
  | revokeUserSession (reason : String)
  | revokeUserSessionByRefreshHash (presentedHash : Digest) (reason : String)
  | revokeUserSessions (reason : String)
  | advanceUserSessionAuthVersion (advance : Advance)
  deriving DecidableEq

inductive Reply where
  /-- The cached session, without its digests. -/
  | hit (entry : CacheEntry)
  | session (session : UserSession)
  /-- A session together with `ErrUserSessionRefreshRace`. -/
  | raced (session : UserSession)
  | revoked (done : Bool)
  /-- The count of a bulk call, as far as this session goes. -/
  | affected (count : Nat) (error : Option SessionError)
  | failed (error : SessionError)
  deriving DecidableEq

/-- The statement that revokes the row, which follows the deny fence. -/
inductive Revocation where
  | reuse (rotation : Rotation) (session : UserSession)
  | revoke (candidate : UserSession) (now : Int) (reason : String)
  | byHash (session : UserSession) (now : Int) (reason : String)
  | bulk (now : Int) (reason : String) (affected : Nat)
  deriving DecidableEq

/-- What a caller of `writeUserSessionCache` goes on with. -/
inductive After where
  /-- `GetUserSessionCached` has read a session that is not active. -/
  | denied
  /-- `GetUserSessionCached` or `RotateUserSessionRefresh` returns the session. -/
  | deliver (session : UserSession)
  | advanced (session : UserSession)
  /-- The row is revoked next. -/
  | fence (revocation : Revocation)
  /-- The row has been revoked. -/
  | tombstone (revocation : Revocation)
  deriving DecidableEq

inductive Pc where
  | getCache
  | getEntry (entry : CacheEntry)
  | getDeadline
  | getRow (deadline : Int)
  | getCheck (deadline : Int) (session : UserSession)
  | rotateDeadline (rotation : Rotation) (attempts : Nat)
  | rotateRead (rotation : Rotation) (attempts : Nat) (deadline : Int)
  | rotateSwap (rotation : Rotation) (attempts : Nat) (deadline : Int) (session : UserSession)
  | revokeRead (now : Int) (reason : String)
  | byHashRead (presentedHash : Digest) (now : Int) (reason : String)
  | bulkRead (now : Int) (reason : String) (affected : Nat)
  | commit (revocation : Revocation)
  | advanceDeadline (advance : Advance)
  | advanceNow (advance : Advance) (deadline : Int)
  | advanceTx (advance : Advance) (deadline now : Int)
  | prepare (entry : CacheEntry) (deadline : Option Int) (after : After)
  | execute (entry : CacheEntry) (deadline : Option Int) (expiration : Int) (after : After)
  | completed (entry : CacheEntry) (deadline : Option Int) (after : After)
  | confirm (session : UserSession)
  | confirmCount (session : UserSession) (now : Int)
  | finished (reply : Reply)
  deriving DecidableEq

/-- A call; `late` says that it started after a revocation had been reported. -/
structure Call where
  op : Op
  late : Bool
  pc : Pc
  deriving DecidableEq

/-! ### State -/

/-- A compare-and-swap of the refresh digest that succeeded; `now` is the time of the call, `clock`
    that of the statement. -/
structure Exchange where
  (presentedHash nextHash : Digest)
  (now validUntil clock : Int)
  deriving DecidableEq

inductive Event where
  | exchanged (exchange : Exchange)
  /-- The reuse branch has revoked the row. -/
  | reused (presentedHash : Digest) (now : Int)
  /-- A revoke call has revoked the row. -/
  | revoked
  /-- A revoke call reports the revocation. -/
  | reported
  deriving DecidableEq

/-- `userCacheTTLSeconds` and `common.RedisEnabled`. -/
structure Config where
  ttl : Int
  redisEnabled : Bool

/-- The session in the database and in Redis, the calls, and what has happened so far. -/
structure Store where
  clock : Int
  row : UserSession
  /-- The entry in Redis, with the time at which its key expires. -/
  cache : Option (CacheEntry × Int) := none
  calls : List Call := []
  log : List Event := []

/-- The environment lets a command succeed or fail; `lost` is a script that runs but whose reply is
    an error, and `skip` a batch of a bulk call without this session. -/
inductive Choice where
  | ok
  | fail
  | lost
  | skip
  deriving DecidableEq

/-- What a step of a call changes. -/
structure Move where
  row : UserSession
  cache : Option (CacheEntry × Int)
  event : Option Event
  pc : Pc

/-! ### Cache writes -/

/-- What `writeUserSessionCache` returns; `stale` is `errUserSessionCacheObservationStale`. -/
inductive Written where
  | ok
  | stale
  | failed (error : SessionError)
  deriving DecidableEq

/-- The expiration that `writeUserSessionCache` gives to the script: a time for an active entry, a
    duration for a deny entry.  In whole seconds the checks against a millisecond never add
    anything. -/
def expiration (c : Config) (now : Int) (entry : CacheEntry) (deadline : Option Int) :
    Except Written Int :=
  let sessionTTL := entry.expiresAt - now
  if entry.status = .active then
    match deadline with
    | none => .error (.failed .invalid)
    | some cacheDeadline =>
      if cacheDeadline - now ≤ 0 then .error .stale
      else if sessionTTL ≤ 0 then .error (.failed .inactive)
      else .ok (if entry.expiresAt < cacheDeadline then entry.expiresAt else cacheDeadline)
  else
    let ttl := min sessionTTL c.ttl
    .ok (if ttl ≤ 0 then 1 else ttl)

def After.resume (after : After) (written : Written) : Pc × Option Event :=
  match after with
  | .denied => (.finished (.failed .inactive), none)
  | .deliver session =>
    match written with
    | .stale => (.confirm session, none)
    | .failed .inactive => (.finished (.failed .inactive), none)
    -- any other failure is only logged
    | _ => (.finished (.session session), none)
  | .advanced session =>
    match written with
    | .ok => (.finished (.session session), none)
    | .stale => (.confirm session, none)
    | .failed error => (.finished (.failed error), none)
  | .fence revocation =>
    match written, revocation with
    | .ok, _ => (.commit revocation, none)
    | .failed error, .bulk _ _ affected => (.finished (.affected affected (some error)), none)
    | .failed error, _ => (.finished (.failed error), none)
    -- a deny entry is never stale
    | .stale, _ => (.finished (.failed .inactive), none)
  -- a tombstone that was not written is only logged
  | .tombstone (.reuse _ _) => (.finished (.failed .refreshReuse), none)
  | .tombstone (.bulk now reason affected) => (.bulkRead now reason affected, some .reported)
  | .tombstone _ => (.finished (.revoked true), some .reported)

namespace Store

variable (c : Config) (s : Store)

def visible : Option CacheEntry :=
  match s.cache with
  | some (entry, expires) => if s.clock < expires then some entry else none
  | none => none

/-- The script of `writeUserSessionCache`; nothing is a refusal. -/
def script (entry : CacheEntry) (expiration : Int) : Option (CacheEntry × Int) :=
  if entry.status = .active ∧ (s.visible.any fun current => current.status ≠ .active) then none
  else if entry.version < (s.visible.map (·.version)).getD 0 then none
  else some (entry, if entry.status = .active then expiration else s.clock + expiration)

/-- A step that changes nothing but the place of the call. -/
def stay (pc : Pc) : Move := ⟨s.row, s.cache, none, pc⟩

/-- The call goes on after a cache write. -/
def resume (cache : Option (CacheEntry × Int)) (after : After) (written : Written) : Move :=
  ⟨s.row, cache, (after.resume written).2, (after.resume written).1⟩

/-- The call starts its deny fence. -/
def fence (session : UserSession) (now : Int) (reason : String) (revocation : Revocation) : Move :=
  s.stay (.prepare (session.denyEntry .revoking now reason) none (.fence revocation))

variable (rotation : Rotation)

/-- `RotateUserSessionRefresh` on the row that it has read. -/
def rotateRead (attempts : Nat) (deadline : Int) : Move :=
  if ¬ s.row.Live rotation.now then s.stay (.finished (.failed .inactive))
  else if s.row.refreshHash = rotation.presentedHash then
    s.stay (.rotateSwap rotation attempts deadline s.row)
  else if s.row.previousRefreshHash ≠ some rotation.presentedHash then
    s.stay (.finished (.failed .refreshInvalid))
  else if rotation.now ≤ s.row.previousValidUntil then s.stay (.finished (.raced s.row))
  else s.fence s.row rotation.now "refresh_reuse" (.reuse rotation s.row)

/-- The columns that an exchange sets. -/
def exchange (superseded : Digest) (session : UserSession) : UserSession :=
  { session with
    previousRefreshHash := some superseded
    previousValidUntil := rotation.now + rotation.graceSeconds
    refreshHash := rotation.nextHash
    lastActiveAt := rotation.now }

def rotateSwap (attempts : Nat) (deadline : Int) (session : UserSession) : Move :=
  if s.row.Live rotation.now ∧ s.row.refreshHash = rotation.presentedHash then
    let rotated := exchange rotation session.refreshHash session
    { row := exchange rotation session.refreshHash s.row
      cache := s.cache
      event := some (.exchanged
        { presentedHash := rotation.presentedHash
          nextHash := rotation.nextHash
          now := rotation.now
          validUntil := rotation.now + rotation.graceSeconds
          clock := s.clock })
      pc := .prepare rotated.cacheEntry (some deadline) (.deliver rotated) }
  else s.stay (.rotateDeadline rotation attempts)

/-- The row is revoked, and the tombstone is next. -/
def revokeRow (session : UserSession) (now : Int) (reason : String) (revocation : Revocation)
    (event : Event) : Move :=
  { row := s.row.revoke now reason
    cache := s.cache
    event := some event
    pc := .prepare (session.denyEntry .revoked now reason) none (.tombstone revocation) }

/-- The transaction, or the statement, that revokes the row. -/
def commit (choice : Choice) : Revocation → Move
  | .reuse rotation session =>
    if choice = .fail then s.stay (.finished (.failed .database))
    else if s.row.Live rotation.now then
      s.revokeRow session rotation.now "refresh_reuse" (.reuse rotation session)
        (.reused rotation.presentedHash rotation.now)
    else s.stay (.finished (.failed .inactive))
  | .revoke candidate now reason =>
    if choice = .fail then s.stay (.finished (.failed .database))
    else if s.row.Live now then
      s.revokeRow candidate now reason (.revoke candidate now reason) .revoked
    else s.stay (.finished (.revoked false))
  | .byHash session now reason =>
    if choice = .fail then s.stay (.finished (.failed .database))
    else if s.row.status = .active then
      s.revokeRow session now reason (.byHash session now reason) .revoked
    else s.stay (.finished (.revoked false))
  | .bulk now reason affected =>
    if choice = .fail then s.stay (.finished (.affected affected (some .database)))
    else if s.row.status = .active then
      s.revokeRow s.row now reason (.bulk now reason (affected + 1)) .revoked
    else s.stay (.bulkRead now reason affected)

/-- The transaction of `AdvanceUserSessionAuthVersion`. -/
def advanceTx (advance : Advance) (deadline now : Int) : Move :=
  if s.row.status = .active ∧ now < s.row.expiresAt ∧
    s.row.version = advance.expectedSessionVersion ∧
      s.row.userAuthVersion = advance.expectedUserAuthVersion then
    let session := { s.row with
      version := s.row.version + 1
      userAuthVersion := advance.nextUserAuthVersion
      lastActiveAt := now }
    ⟨session, s.cache, none, .prepare session.cacheEntry (some deadline) (.advanced session)⟩
  else s.stay (.finished (.failed .inactive))

def execute (choice : Choice) (entry : CacheEntry) (deadline : Option Int) (expiration : Int)
    (after : After) : Move :=
  if choice = .fail then s.resume s.cache after (.failed .redis)
  else
    match s.script entry expiration with
    | none => s.resume s.cache after (.failed (if choice = .lost then .redis else .inactive))
    | some cached =>
      if choice = .lost then s.resume (some cached) after (.failed .redis)
      else if entry.status = .active then ⟨s.row, some cached, none,
        .completed entry deadline after⟩
      else s.resume (some cached) after .ok

def stepCall (choice : Choice) : Pc → Move
  | .getCache =>
    if c.redisEnabled ∧ choice ≠ .fail then
      match s.visible with
      | none => s.stay .getDeadline
      | some entry => s.stay (.getEntry entry)
    else s.stay .getDeadline
  | .getEntry entry =>
    if entry.version ≤ 0 ∨ entry.userAuthVersion ≤ 0 then s.stay .getDeadline
    else if Live entry.status entry.revokedAt entry.expiresAt s.clock
      then s.stay (.finished (.hit entry))
    else s.stay (.finished (.failed .inactive))
  | .getDeadline => s.stay (.getRow (s.clock + c.ttl))
  | .getRow deadline =>
    if choice = .fail then s.stay (.finished (.failed .database))
      else s.stay (.getCheck deadline s.row)
  | .getCheck deadline session =>
    if session.Live s.clock then
      if c.redisEnabled then s.stay (.prepare session.cacheEntry (some deadline) (.deliver session))
      else s.stay (.finished (.session session))
    else if c.redisEnabled then s.stay (.prepare
      { session.cacheEntry with status := .revoked } none .denied)
    else s.stay (.finished (.failed .inactive))
  | .rotateDeadline _ 0 => s.stay (.finished (.failed .refreshInvalid))
  | .rotateDeadline rotation (attempts + 1) =>
    s.stay (.rotateRead rotation attempts (s.clock + c.ttl))
  | .rotateRead rotation attempts deadline =>
    if choice = .fail then s.stay (.finished (.failed .database))
      else s.rotateRead rotation attempts deadline
  | .rotateSwap rotation attempts deadline session =>
    if choice = .fail then s.stay (.finished (.failed .database))
    else s.rotateSwap rotation attempts deadline session
  | .revokeRead now reason =>
    if choice = .fail then s.stay (.finished (.failed .database))
    else if s.row.Live now then s.fence s.row now reason (.revoke s.row now reason)
    else s.stay (.finished (.revoked false))
  | .byHashRead presentedHash now reason =>
    if choice = .fail then s.stay (.finished (.failed .database))
    else if s.row.Live now ∧ (s.row.refreshHash = presentedHash ∨
        now ≤ s.row.previousValidUntil ∧ s.row.previousRefreshHash = some presentedHash) then
      s.fence s.row now reason (.byHash s.row now reason)
    else s.stay (.finished (.revoked false))
  | .bulkRead now reason affected =>
    if choice = .fail then s.stay (.finished (.affected affected (some .database)))
    else if choice = .skip then s.stay (.bulkRead now reason affected)
    else if s.row.status = .active ∧ now < s.row.expiresAt then
      s.fence s.row now reason (.bulk now reason affected)
    else s.stay (.finished (.affected affected none))
  | .commit revocation => s.commit choice revocation
  | .advanceDeadline advance => s.stay (.advanceNow advance (s.clock + c.ttl))
  | .advanceNow advance deadline => s.stay (.advanceTx advance deadline s.clock)
  | .advanceTx advance deadline now =>
    if choice = .fail then s.stay (.finished (.failed .database))
      else s.advanceTx advance deadline now
  | .prepare entry deadline after =>
    if c.redisEnabled then
      match expiration c s.clock entry deadline with
      | .error written => s.resume s.cache after written
      | .ok expiration => s.stay (.execute entry deadline expiration after)
    else s.resume s.cache after .ok
  | .execute entry deadline expiration after => s.execute choice entry deadline expiration after
  | .completed entry deadline after =>
    if deadline.any (· ≤ s.clock) then s.resume s.cache after .stale
    else if entry.expiresAt ≤ s.clock then s.resume s.cache after (.failed .inactive)
    else s.resume s.cache after .ok
  | .confirm session =>
    if session.version ≤ 0 ∨ session.userAuthVersion ≤ 0 then s.stay (.finished (.failed .invalid))
    else s.stay (.confirmCount session s.clock)
  | .confirmCount session now =>
    if choice = .fail then s.stay (.finished (.failed .database))
    else if s.row.Live now ∧ s.row.version = session.version ∧
      s.row.userAuthVersion = session.userAuthVersion then
      s.stay (.finished (.session session))
    else s.stay (.finished (.failed .inactive))
  | .finished reply => s.stay (.finished reply)

/-- The first step of a call: its arguments are checked, and the calls that take the time at once
    take it. -/
def begin : Op → Pc
  | .getUserSessionCached => .getCache
  | .rotateUserSessionRefresh rotation =>
    if rotation.presentedHash = rotation.nextHash then .finished (.failed .invalid)
    else if rotation.graceSeconds < 0 then .finished (.failed .invalid)
    else .rotateDeadline { rotation with now := if rotation.now ≤ 0 then s.clock else rotation.now }
      3
  | .revokeUserSession reason => .revokeRead s.clock reason
  | .revokeUserSessionByRefreshHash presentedHash reason => .byHashRead presentedHash s.clock reason
  | .revokeUserSessions reason => .bulkRead s.clock reason 0
  | .advanceUserSessionAuthVersion advance =>
    if advance.expectedSessionVersion ≤ 0 ∨ advance.expectedUserAuthVersion ≤ 0 ∨
        advance.nextUserAuthVersion ≤ advance.expectedUserAuthVersion then
      .finished (.failed .invalid)
    else .advanceDeadline advance

end Store

inductive Step where
  | start (op : Op)
  | call (i : Nat) (choice : Choice)
  | tick (seconds : Nat)
  deriving DecidableEq

/-- A call starts, a call goes on, or time passes. -/
def Store.step (c : Config) (s : Store) : Step → Store
  | .start op => { s with calls := s.calls ++ [⟨op, .reported ∈ s.log, s.begin op⟩] }
  | .call i choice =>
    match s.calls[i]? with
    | none => s
    | some call =>
      let move := s.stepCall c choice call.pc
      { s with
        row := move.row
        cache := move.cache
        calls := s.calls.set i { call with pc := move.pc }
        log := s.log ++ move.event.toList }
  | .tick seconds => { s with clock := s.clock + seconds }

/-! ### What a step can do to the row -/

/-- The places of the call before and after a step, the new row, and the event of the step. -/
inductive RowStep (s : Store) : Pc → Pc → UserSession → Option Event → Prop where
  | same (pc pc' : Pc) (event : Option Event) (quiet : ∀ e ∈ event,
    e = .reported) : RowStep s pc pc' s.row event
  | exchanged (rotation : Rotation) (attempts : Nat) (deadline : Int) (session : UserSession)
      (live : s.row.Live rotation.now) (current : s.row.refreshHash = rotation.presentedHash) :
      RowStep s (.rotateSwap rotation attempts deadline session)
        (.prepare (Store.exchange rotation session.refreshHash session).cacheEntry (some deadline)
          (.deliver (Store.exchange rotation session.refreshHash session)))
        (Store.exchange rotation session.refreshHash s.row)
        (some (.exchanged ⟨rotation.presentedHash, rotation.nextHash, rotation.now,
          rotation.now + rotation.graceSeconds, s.clock⟩))
  | reused (rotation : Rotation) (session : UserSession) (live : s.row.Live rotation.now) :
      RowStep s (.commit (.reuse rotation session))
        (.prepare (session.denyEntry .revoked rotation.now "refresh_reuse") none
          (.tombstone (.reuse rotation session)))
        (s.row.revoke rotation.now "refresh_reuse")
        (some (.reused rotation.presentedHash rotation.now))
  | revoked (revocation revocation' : Revocation) (session : UserSession) (now : Int)
    (reason : String)
      (live : s.row.status = .active) :
      RowStep s (.commit revocation)
        (.prepare (session.denyEntry .revoked now reason) none (.tombstone revocation'))
        (s.row.revoke now reason) (some .revoked)
  | advanced (advance : Advance) (deadline now : Int) (session : UserSession)
    (live : s.row.status = .active)
      (next : session = { s.row with
        version := s.row.version + 1
        userAuthVersion := advance.nextUserAuthVersion
        lastActiveAt := now }) :
      RowStep s (.advanceTx advance deadline now)
        (.prepare session.cacheEntry (some deadline) (.advanced session)) session none

/-- What a call does to the row when it moves on from a place. -/
abbrev Move.Steps (move : Move) (s : Store) (pc : Pc) :
    Prop := RowStep s pc move.pc move.row move.event

theorem After.resume_event (after : After) (written : Written) :
    ∀ e ∈ (after.resume written).2, e = .reported := by
  intro e he
  unfold After.resume at he
  split at he <;> (try split at he) <;> simp_all

namespace Store

variable (c : Config) (s : Store) (choice : Choice)

theorem stay_rowStep (pc pc' : Pc) : (s.stay pc').Steps s pc := .same pc _ none (by simp)

theorem resume_rowStep (pc : Pc) (cache : Option (CacheEntry × Int)) (after : After)
    (written : Written) :
    (s.resume cache after written).Steps s pc :=
  .same pc _ _ (after.resume_event written)

theorem commit_rowStep (revocation : Revocation) :
    (s.commit choice revocation).Steps s (.commit revocation) := by
  cases revocation with
  | reuse rotation session =>
    rw [commit]
    split_ifs with _ hlive
    · exact stay_rowStep ..
    · exact .reused rotation session hlive
    · exact stay_rowStep ..
  | revoke candidate now reason =>
    rw [commit]
    split_ifs with _ hlive
    · exact stay_rowStep ..
    · exact .revoked _ _ candidate now reason hlive.1
    · exact stay_rowStep ..
  | byHash session now reason =>
    rw [commit]
    split_ifs with _ hlive
    · exact stay_rowStep ..
    · exact .revoked _ _ session now reason hlive
    · exact stay_rowStep ..
  | bulk now reason affected =>
    rw [commit]
    split_ifs with _ hlive
    · exact stay_rowStep ..
    · exact .revoked _ _ s.row now reason hlive
    · exact stay_rowStep ..

theorem execute_rowStep (pc : Pc) (entry : CacheEntry) (deadline : Option Int) (expiration : Int)
    (after : After) :
    (s.execute choice entry deadline expiration after).Steps s pc := by
  unfold execute
  split
  · exact resume_rowStep ..
  split
  · exact resume_rowStep ..
  split_ifs
  · exact resume_rowStep ..
  · exact .same pc _ none (by simp)
  · exact resume_rowStep ..

/-- **Row inversion.** A step exchanges the digest, revokes the row, advances its version, or leaves
    it. -/
theorem stepCall_rowStep (pc : Pc) : (s.stepCall c choice pc).Steps s pc := by
  cases pc with
  | rotateSwap rotation attempts deadline session =>
    rw [stepCall]
    split
    · exact stay_rowStep ..
    rw [rotateSwap]
    split_ifs with hswap
    · exact .exchanged rotation attempts deadline session hswap.1 hswap.2
    · exact stay_rowStep ..
  | commit revocation => exact commit_rowStep ..
  | advanceTx advance deadline now =>
    rw [stepCall]
    split
    · exact stay_rowStep ..
    rw [advanceTx]
    split_ifs with hlive
    · exact .advanced advance deadline now _ hlive.1 rfl
    · exact stay_rowStep ..
  | execute entry deadline expiration after => exact execute_rowStep ..
  | rotateDeadline rotation attempts => cases attempts <;> exact stay_rowStep ..
  | rotateRead rotation attempts deadline =>
    rw [stepCall]
    split
    · exact stay_rowStep ..
    · rw [rotateRead]
      split_ifs <;> exact stay_rowStep ..
  | getCache =>
    rw [stepCall]
    split
    · split <;> exact stay_rowStep ..
    · exact stay_rowStep ..
  | prepare entry deadline after =>
    rw [stepCall]
    split
    · split
      · exact resume_rowStep ..
      · exact stay_rowStep ..
    · exact resume_rowStep ..
  | completed entry deadline after =>
    rw [stepCall]
    split_ifs <;> exact resume_rowStep ..
  | _ =>
    rw [stepCall]
    try split_ifs
    all_goals exact stay_rowStep ..

end Store

end TokenGateway.Sessions
