import TokenGateway.Sessions.Refresh

namespace TokenGateway.Sessions

open Base Store List

/-!
# Revoked sessions stay revoked

An active snapshot of the row may be published in Redis long after the row was read.  It carries a
deadline that was taken before the read, so that it expires at most one cache lifetime after the
revocation has been committed; a tombstone that was written after the commit lives at least as long.
The proof makes the two lifetimes explicit:

* `Pc.Bounded` — what a call holds, in terms of the time `since` up to which the row has been
  active;
* `Store.Denied` — the tombstone that covers every active snapshot still around;
* `Pc.Quiet` — where a `GetUserSessionCached` call that started after the report can stand;
* `RevocationInvariant`, `revocation_step` — what every step keeps, when the tombstones of revoke
  calls are written;
* `revoked_session_stays_revoked` — what follows for every run.
-/

/-! ### The condition -/

/-- The tombstone of a revoke call. -/
def After.Reports : After → Prop
  | .tombstone (.reuse _ _) => False
  | .tombstone _ => True
  | _ => False

instance : DecidablePred After.Reports
  | .tombstone (.reuse _ _) => isFalse id
  | .tombstone (.revoke _ _ _) => isTrue trivial
  | .tombstone (.byHash _ _ _) => isTrue trivial
  | .tombstone (.bulk _ _ _) => isTrue trivial
  | .denied => isFalse id
  | .deliver _ => isFalse id
  | .advanced _ => isFalse id
  | .fence _ => isFalse id

/-- The second write of a revoke call, after its commit, reaches Redis, and Redis does not hold an
    entry of a higher version. -/
def Pc.Lands (s : Store) (choice : Choice) : Pc → Prop
  | .execute entry _ _ after =>
    after.Reports → choice ≠ .fail ∧ ∀ current ∈ s.visible, current.version ≤ entry.version
  | _ => True

instance (s : Store) (choice : Choice) : DecidablePred (Pc.Lands s choice) := fun pc =>
  match pc with
  | .execute .. => inferInstanceAs (Decidable (_ → _ ∧ ∀ current ∈ _, _))
  | .getCache | .getEntry .. | .getDeadline | .getRow .. | .getCheck .. | .rotateDeadline ..
    | .rotateRead ..
  | .rotateSwap .. | .revokeRead .. | .byHashRead .. | .bulkRead .. | .commit ..
    | .advanceDeadline ..
  | .advanceNow .. | .advanceTx .. | .prepare .. | .completed .. | .confirm .. | .confirmCount ..
  | .finished .. => isTrue trivial

/-- The condition on the steps of a run. -/
def TombstoneLands (s : Store) : Step → Prop
  | .call i choice => ∀ call ∈ s.calls[i]?, call.pc.Lands s choice
  | .start _ | .tick _ => True

instance (s : Store) : DecidablePred (TombstoneLands s)
  | .call _ _ => inferInstanceAs (Decidable (∀ call ∈ _, _))
  | .start _ => isTrue trivial
  | .tick _ => isTrue trivial

/-- A session without calls; the entry in Redis, if there is one, is the one that the login has
    published. -/
structure Store.Idle (c : Config) (s : Store) : Prop where
  version : 0 < s.row.version
  idle : s.calls = []
  log : s.log = []
  cached : ∀ entry expires, s.cache = some (entry, expires) → entry.status = .active →
    expires ≤ s.clock + c.ttl ∧ expires ≤ s.row.expiresAt

/-! ### Invariant -/

variable (expiresAt : Int)

def CacheEntry.Snapshot (entry : CacheEntry) : Prop :=
  entry.expiresAt = expiresAt ∧ 0 < entry.version

def UserSession.Snapshot (session : UserSession) : Prop :=
  session.expiresAt = expiresAt ∧ 0 < session.version

def Revocation.Snapshot : Revocation → Prop
  | .reuse _ session | .revoke session _ _ | .byHash session _ _ => session.Snapshot expiresAt
  | .bulk _ _ _ => True

/-- What the caller of a cache write holds. -/
def After.Bounded (row : UserSession) (entry : CacheEntry) : After → Prop
  | .fence revocation => revocation.Snapshot expiresAt
  | .tombstone _ => entry.status ≠ .active ∧ row.status ≠ .active
  | .denied | .deliver _ | .advanced _ => True

/-- What a call holds: deadlines reach at most one lifetime beyond the present, and those of active
    snapshots at most one lifetime beyond the time up to which the row has been active. -/
def Pc.Bounded (c : Config) (expiresAt since clock : Int) (row : UserSession) : Pc → Prop
  | .getRow deadline | .rotateRead _ _ deadline | .advanceNow _ deadline
    | .advanceTx _ deadline _ =>
    deadline ≤ clock + c.ttl
  | .getCheck deadline session =>
    session.Snapshot expiresAt ∧ (session.status = .active → deadline ≤ since + c.ttl)
  | .rotateSwap _ _ deadline session => session.Snapshot expiresAt ∧ deadline ≤ since + c.ttl
  | .commit revocation => revocation.Snapshot expiresAt
  | .prepare entry deadline after =>
    entry.Snapshot expiresAt ∧ (entry.status = .active → ∀ d ∈ deadline, d ≤ since + c.ttl) ∧
      after.Bounded expiresAt row entry
  | .execute entry _ expiration after =>
    entry.Snapshot expiresAt ∧
      (entry.status = .active → expiration ≤ since + c.ttl ∧ expiration ≤ expiresAt) ∧
      (entry.status ≠ .active → min (expiresAt - clock) c.ttl ≤ expiration) ∧
      after.Bounded expiresAt row entry
  | .completed entry _ after => after.Bounded expiresAt row entry ∧ entry.status = .active
  | _ => True

/-- Redis denies the session for as long as an active snapshot of it may be around. -/
def Store.Denied (c : Config) (since : Int) (s : Store) : Prop :=
  min s.row.expiresAt (since + c.ttl) ≤ s.clock ∨
    ∃ entry expires, s.cache = some (entry, expires) ∧ entry.status ≠ .active ∧
      min s.row.expiresAt (since + c.ttl) ≤ expires

/-- A `GetUserSessionCached` call that has not seen an active session, and will not return one. -/
def Pc.Quiet : Pc → Prop
  | .getCache | .getDeadline | .getRow _ => True
  | .getEntry entry => entry.status ≠ .active
  | .getCheck _ session => session.status ≠ .active
  | .prepare _ _ after | .execute _ _ _ after | .completed _ _ after => after = .denied
  | .finished (.failed _) => True
  | _ => False

/-- What every reachable state satisfies; `since` is the time up to which the row has been
    active. -/
structure RevocationInvariant (c : Config) (expiresAt since : Int) (s : Store) : Prop where
  expires : s.row.expiresAt = expiresAt
  version : 0 < s.row.version
  past : since ≤ s.clock
  standing : s.row.status = .active → since = s.clock
  cached : ∀ entry expires, s.cache = some (entry, expires) → entry.status = .active →
    expires ≤ since + c.ttl ∧ expires ≤ expiresAt
  calls : ∀ call ∈ s.calls, call.pc.Bounded c expiresAt since s.clock s.row
  reported : .reported ∈ s.log → s.row.status ≠ .active ∧ (c.redisEnabled → s.Denied c since)
  late : ∀ call ∈ s.calls, call.late = true → .reported ∈ s.log ∧
    (call.op = .getUserSessionCached → call.pc.Quiet)

/-! ### One step of a call -/

variable {clock x : Int} {revocation : Revocation} {current : CacheEntry}

section Calls

variable {c : Config} {expiresAt since : Int} {s : Store} {choice : Choice} {pc : Pc}
  {row : UserSession}

theorem Pc.Bounded.mono {since' clock' : Int} {row' : UserSession}
    (h : pc.Bounded c expiresAt since clock row) (hsince : since ≤ since') (hclock : clock ≤ clock')
    (hrow : row.status ≠ .active → row'.status ≠ .active) :
    pc.Bounded c expiresAt since' clock' row' := by
  have hafter : ∀ {entry : CacheEntry} {after : After}, after.Bounded expiresAt row entry →
      after.Bounded expiresAt row' entry := by
    intro entry after hafter
    cases after with
    | tombstone revocation => exact ⟨hafter.1, hrow hafter.2⟩
    | fence revocation => exact hafter
    | _ => trivial
  cases pc with
  | getRow _ | rotateRead _ _ _ | advanceNow _ _ | advanceTx _ _ _ => exact le_trans h (by omega)
  | getCheck deadline session => exact ⟨h.1, fun hactive => le_trans (h.2 hactive) (by omega)⟩
  | rotateSwap _ _ deadline session => exact ⟨h.1, le_trans h.2 (by omega)⟩
  | commit revocation => exact h
  | prepare entry deadline after =>
    exact ⟨h.1, fun hactive d hd => le_trans (h.2.1 hactive d hd) (by omega), hafter h.2.2⟩
  | execute entry deadline expiration after =>
    refine ⟨h.1, fun hactive => ⟨le_trans (h.2.1 hactive).1 (by omega), (h.2.1 hactive).2⟩,
      fun hdeny => le_trans ?_ (h.2.2.1 hdeny), hafter h.2.2.2⟩
    omega
  | completed entry deadline after => exact ⟨hafter h.1, h.2⟩
  | _ => trivial

variable {entry : CacheEntry} {after : After}

theorem After.Bounded.resume (h : after.Bounded expiresAt row entry) (written : Written) :
    (after.resume written).1.Bounded c expiresAt since clock row := by
  unfold After.resume
  split
  · trivial
  · split <;> trivial
  · split <;> trivial
  · split <;> first | exact h | trivial
  · trivial
  · trivial
  · trivial

/-- The expiration of an active entry, and the lifetime of a deny entry. -/
theorem expiration_ok {now : Int} {deadline : Option Int}
    (h : expiration c now entry deadline = .ok x) :
    (entry.status = .active → ∃ d ∈ deadline, x ≤ d ∧ x ≤ entry.expiresAt) ∧
      (entry.status ≠ .active → min (entry.expiresAt - now) c.ttl ≤ x) := by
  unfold expiration at h
  split at h
  · rename_i hactive
    refine ⟨fun _ => ?_, fun hdeny => absurd hactive hdeny⟩
    cases deadline with
    | none => cases h
    | some d =>
      dsimp only at h
      split_ifs at h with _ _ hbefore
      · cases h
        exact ⟨d, rfl, by omega, le_refl _⟩
      · cases h
        exact ⟨_, rfl, le_refl _, by omega⟩
  · rename_i hdeny
    refine ⟨fun hactive => absurd hactive hdeny, fun _ => ?_⟩
    have := Except.ok.inj h
    split_ifs at this <;> omega

theorem revokeRow_bounded {session : UserSession} (hsession : session.Snapshot expiresAt)
    (now : Int)
    (reason : String) (revocation : Revocation) (event : Event) :
    (s.revokeRow session now reason revocation event).pc.Bounded c expiresAt since s.clock
      (s.revokeRow session now reason revocation event).row :=
  ⟨hsession, fun _ d hd => (Option.not_mem_none d hd).elim, SessionStatus.noConfusion,
    SessionStatus.noConfusion⟩

namespace RevocationInvariant

variable (h : RevocationInvariant c expiresAt since s)
include h

theorem row_snapshot : s.row.Snapshot expiresAt := ⟨h.expires, h.version⟩

theorem fence_bounded (now : Int) (reason : String) (hsnapshot : revocation.Snapshot expiresAt) :
    (s.fence s.row now reason revocation).pc.Bounded c expiresAt since s.clock s.row :=
  ⟨h.row_snapshot, fun _ d hd => (Option.not_mem_none d hd).elim, hsnapshot⟩

theorem commit_bounded (hb : revocation.Snapshot expiresAt) :
    (s.commit choice revocation).pc.Bounded c expiresAt since s.clock
      (s.commit choice revocation).row := by
  cases revocation <;> rw [Store.commit] <;> split_ifs <;>
    first | trivial | exact revokeRow_bounded hb .. | exact revokeRow_bounded h.row_snapshot ..

theorem stepCall_bounded (hb : pc.Bounded c expiresAt since s.clock s.row) :
    (s.stepCall c choice pc).pc.Bounded c expiresAt since s.clock (s.stepCall c choice pc).row := by
  cases pc with
  | getCache =>
    rw [stepCall]
    split
    · split <;> trivial
    · trivial
  | getDeadline => exact le_refl (s.clock + c.ttl)
  | getRow deadline =>
    rw [stepCall]
    split
    · trivial
    · exact ⟨h.row_snapshot, fun hactive => h.standing hactive ▸ hb⟩
  | getCheck deadline session =>
    rw [stepCall]
    split_ifs
    · exact ⟨hb.1, fun hactive d hd => Option.some.inj hd ▸ hb.2 hactive, trivial⟩
    · trivial
    · exact ⟨hb.1, fun _ d hd => (Option.not_mem_none d hd).elim, trivial⟩
    · trivial
  | rotateDeadline rotation attempts =>
    cases attempts with
    | zero => trivial
    | succ attempts => exact le_refl (s.clock + c.ttl)
  | rotateRead rotation attempts deadline =>
    rw [stepCall, rotateRead]
    split_ifs with _ hlive
    · trivial
    · exact ⟨h.row_snapshot, h.standing hlive.1 ▸ hb⟩
    · trivial
    · trivial
    · exact h.fence_bounded _ _ h.row_snapshot
    · trivial
  | rotateSwap rotation attempts deadline session =>
    rw [stepCall, rotateSwap]
    split_ifs
    · trivial
    · exact ⟨hb.1, fun _ d hd => Option.some.inj hd ▸ hb.2, trivial⟩
    · trivial
  | revokeRead | byHashRead =>
    rw [stepCall]
    split_ifs
    · trivial
    · exact h.fence_bounded _ _ h.row_snapshot
    · trivial
  | bulkRead now reason affected =>
    rw [stepCall]
    split_ifs
    · trivial
    · trivial
    · exact h.fence_bounded _ _ trivial
    · trivial
  | commit revocation => exact h.commit_bounded hb
  | advanceDeadline advance => exact le_refl (s.clock + c.ttl)
  | advanceNow advance deadline => exact hb
  | advanceTx advance deadline now =>
    rw [stepCall, advanceTx]
    split_ifs with _ hlive
    · trivial
    · refine ⟨⟨h.expires, ?_⟩, fun _ d hd => ?_, trivial⟩
      · have := h.version
        show 0 < s.row.version + 1
        omega
      · rw [← Option.some.inj hd, h.standing hlive.1]
        exact hb
    · trivial
  | prepare entry deadline after =>
    rw [stepCall]
    split
    · split
      · exact hb.2.2.resume _
      rename_i x hx
      obtain ⟨hactive, hdeny⟩ := expiration_ok hx
      rw [hb.1.1] at hactive hdeny
      refine ⟨hb.1, fun h => ?_, hdeny, hb.2.2⟩
      obtain ⟨d, hd, hle, hle'⟩ := hactive h
      exact ⟨le_trans hle (hb.2.1 h d hd), hle'⟩
    · exact hb.2.2.resume _
  | execute entry deadline x after =>
    rw [stepCall, execute]
    split
    · exact hb.2.2.2.resume _
    split
    · exact hb.2.2.2.resume _
    split_ifs with _ hactive
    · exact hb.2.2.2.resume _
    · exact ⟨hb.2.2.2, hactive⟩
    · exact hb.2.2.2.resume _
  | completed entry deadline after =>
    rw [stepCall]
    split_ifs <;> exact hb.1.resume _
  | _ =>
    rw [stepCall]
    try split_ifs
    all_goals trivial

end RevocationInvariant

/-! ### The entry in Redis -/

theorem visible_cached (h : s.visible = some current) :
    ∃ expires, s.cache = some (current, expires) ∧ s.clock < expires := by
  unfold visible at h
  split at h
  · rename_i entry expires hcache
    split_ifs at h with hlt
    exact ⟨expires, by rw [hcache, Option.some.inj h], hlt⟩
  · cases h

theorem script_some {cached : CacheEntry × Int} (h : s.script entry x = some cached) :
    cached = (entry, if entry.status = .active then x else s.clock + x) ∧
      (entry.status = .active → ∀ current, s.visible = some current →
        current.status = .active) := by
  unfold script at h
  split_ifs at h with hdeny hversion hactive
  · refine ⟨by rw [if_pos hactive]; exact (Option.some.inj h).symm, fun _ current hcurrent => ?_⟩
    rw [hcurrent] at hdeny
    by_contra hne
    exact hdeny ⟨hactive, by simpa using hne⟩
  · exact ⟨by rw [if_neg hactive]; exact (Option.some.inj h).symm, fun h => absurd h hactive⟩

/-- The call is inside `writeUserSessionCache`. -/
def Pc.Writes : Pc → Prop
  | .prepare .. | .execute .. | .completed .. => True
  | _ => False

/-- Outside of `writeUserSessionCache`, Redis is left alone and nothing is reported. -/
theorem stepCall_aside (c : Config) (s : Store) (choice : Choice) (hpc : ¬ pc.Writes) :
    (s.stepCall c choice pc).cache = s.cache ∧ (s.stepCall c choice pc).event ≠ some .reported := by
  have hstay : ∀ pc', (s.stay pc').cache = s.cache ∧ (s.stay pc').event ≠ some .reported :=
    fun _ => ⟨rfl, fun h => by cases h⟩
  cases pc with
  | prepare | execute | completed => exact absurd trivial hpc
  | rotateDeadline rotation attempts => cases attempts <;> exact hstay _
  | rotateRead rotation attempts deadline =>
    rw [stepCall, rotateRead]
    split_ifs <;> exact hstay _
  | rotateSwap rotation attempts deadline session =>
    rw [stepCall, rotateSwap]
    split_ifs
    · exact hstay _
    · exact ⟨rfl, fun h => by cases h⟩
    · exact hstay _
  | commit revocation =>
    rw [stepCall]
    cases revocation <;> (rw [Store.commit]; split_ifs <;> exact ⟨rfl, fun h => by cases h⟩)
  | advanceTx advance deadline now =>
    rw [stepCall, advanceTx]
    split_ifs
    · exact hstay _
    · exact ⟨rfl, fun h => by cases h⟩
    · exact hstay _
  | getCache =>
    rw [stepCall]
    split
    · split <;> exact hstay _
    · exact hstay _
  | _ =>
    rw [stepCall]
    try split_ifs
    all_goals exact hstay _

/-- The script either fails, and the caller goes on, or writes its entry. -/
theorem execute_cases (s : Store) (choice : Choice) (entry : CacheEntry) (deadline : Option Int)
    (x : Int)
    (after : After) :
    (choice = .fail ∨ s.script entry x = none) ∧
      (s.execute choice entry deadline x after).cache = s.cache ∨
      ∃ cached, s.script entry x = some cached ∧
        (s.execute choice entry deadline x after).cache = some cached := by
  unfold execute
  split
  · rename_i hfail
    exact .inl ⟨.inl hfail, rfl⟩
  cases hscript : s.script entry x with
  | none => exact .inl ⟨.inr rfl, rfl⟩
  | some cached =>
    refine .inr ⟨cached, rfl, ?_⟩
    split_ifs <;> rfl

theorem stepCall_cache (c : Config) (s : Store) (choice : Choice) (pc : Pc) :
    (s.stepCall c choice pc).cache = s.cache ∨
      ∃ entry deadline x after cached, pc = .execute entry deadline x after ∧
        s.script entry x = some cached ∧ (s.stepCall c choice pc).cache = some cached := by
  cases pc with
  | execute entry deadline x after =>
    obtain ⟨-, hkept⟩ | ⟨cached, hscript, hwritten⟩ := execute_cases s choice entry deadline x after
    · exact .inl hkept
    · exact .inr ⟨entry, deadline, x, after, cached, rfl, hscript, hwritten⟩
  | prepare entry deadline after =>
    rw [stepCall]
    split
    · split <;> exact .inl rfl
    · exact .inl rfl
  | completed entry deadline after =>
    rw [stepCall]
    split_ifs <;> exact .inl rfl
  | _ => exact .inl (stepCall_aside c s choice id).1

theorem After.resume_reported {written : Written} (h : (after.resume written).2 = some .reported) :
    after.Reports := by
  unfold After.resume at h
  split at h
  · cases h
  · split at h <;> cases h
  · split at h <;> cases h
  · split at h <;> cases h
  · cases h
  · trivial
  · rename_i hreuse hbulk
    rename_i revocation
    cases revocation with
    | reuse rotation session => exact absurd rfl (hreuse rotation session)
    | _ => trivial

theorem After.Reports.bounded (h : after.Reports) (hb : after.Bounded expiresAt row entry) :
    entry.status ≠ .active ∧ row.status ≠ .active := by
  cases after with
  | tombstone revocation => exact hb
  | _ => exact h.elim

theorem script_tombstone (hdeny : entry.status ≠ .active) (hversion : 0 < entry.version)
    (hlands : ∀ current ∈ s.visible, current.version ≤ entry.version) :
    s.script entry x = some (entry, s.clock + x) := by
  unfold script
  rw [if_neg (fun h => hdeny h.1), if_neg, if_neg hdeny]
  cases hvisible : s.visible with
  | none =>
    show ¬ entry.version < 0
    omega
  | some current => exact not_lt.mpr (hlands current hvisible)

namespace RevocationInvariant

variable (h : RevocationInvariant c expiresAt since s)
include h

theorem stepCall_cached (hb : pc.Bounded c expiresAt since s.clock s.row) {expires : Int}
    (hcache : (s.stepCall c choice pc).cache = some (entry, expires))
    (hactive : entry.status = .active) :
    expires ≤ since + c.ttl ∧ expires ≤ expiresAt := by
  obtain heq | ⟨entry', deadline, x, after, cached, rfl, hscript, heq⟩ :=
    stepCall_cache c s choice pc
  · exact h.cached entry expires (heq.symm.trans hcache) hactive
  obtain rfl : cached = (entry, expires) := Option.some.inj (heq.symm.trans hcache)
  obtain ⟨hwritten, -⟩ := script_some hscript
  obtain ⟨rfl, rfl⟩ := Prod.mk.inj hwritten
  rw [if_pos hactive]
  exact hb.2.1 hactive

/-- A deny entry that is written now covers every active snapshot. -/
theorem deny_covers (hx : min (expiresAt - s.clock) c.ttl ≤ x) :
    min s.row.expiresAt (since + c.ttl) ≤ s.clock + x := by
  have := h.past
  rw [h.expires]
  omega

theorem stepCall_denied (hb : pc.Bounded c expiresAt since s.clock s.row)
    (hdenied : s.Denied c since) :
    Denied c since { s with cache := (s.stepCall c choice pc).cache } := by
  obtain heq | ⟨entry, deadline, x, after, cached, rfl, hscript, heq⟩ :=
    stepCall_cache c s choice pc
  · rw [heq]
    exact hdenied
  obtain ⟨rfl, hover⟩ := script_some hscript
  rw [heq]
  by_cases hactive : entry.status = .active
  · -- an active entry is written only after the denial has expired
    obtain hpast | ⟨old, expires, hold, hdeny, hcovers⟩ := hdenied
    · exact .inl hpast
    · refine .inl (le_trans hcovers (not_lt.mp fun hlt => ?_))
      exact hdeny (hover hactive old (by rw [visible, hold]; exact if_pos hlt))
  · rw [if_neg hactive]
    exact .inr ⟨entry, _, rfl, hactive, h.deny_covers (hb.2.2.1 hactive)⟩

/-- What Redis shows after a revocation has been reported is not active. -/
theorem visible_deny (hdenied : s.Denied c since)
    (hcurrent : s.visible = some current) : current.status ≠ .active := by
  intro hactive
  obtain ⟨expires, hcache, hlt⟩ := visible_cached hcurrent
  have hbound := h.cached current expires hcache hactive
  obtain hpast | ⟨entry, expires', hcache', hdeny, -⟩ := hdenied
  · rw [h.expires] at hpast
    omega
  · obtain ⟨rfl, -⟩ := Prod.mk.inj (Option.some.inj (hcache.symm.trans hcache'))
    exact hdeny hactive

/-! ### Reports -/

/-- When a revocation is reported, the row is revoked and Redis denies the session. -/
theorem stepCall_reported (hb : pc.Bounded c expiresAt since s.clock s.row)
    (hlands : pc.Lands s choice) (hevent : (s.stepCall c choice pc).event = some .reported) :
    s.row.status ≠ .active ∧ (c.redisEnabled →
      Denied c since { s with cache := (s.stepCall c choice pc).cache }) := by
  cases pc with
  | prepare entry deadline after =>
    rw [stepCall] at hevent ⊢
    split at hevent
    · -- a deny entry always has an expiration
      split at hevent
      · rename_i written hwritten
        have hdeny := (After.resume_reported hevent).bounded hb.2.2
        unfold expiration at hwritten
        rw [if_neg hdeny.1] at hwritten
        cases hwritten
      · cases hevent
    · rename_i hredis
      exact ⟨((After.resume_reported hevent).bounded hb.2.2).2, fun henabled =>
        absurd henabled hredis⟩
  | execute entry deadline x after =>
    have hreports : after.Reports := by
      rw [stepCall, execute] at hevent
      split at hevent
      · exact After.resume_reported hevent
      split at hevent
      · exact After.resume_reported hevent
      · split_ifs at hevent <;> exact After.resume_reported hevent
    have hdeny := hreports.bounded hb.2.2.2
    obtain ⟨hchoice, hversion⟩ := hlands hreports
    have hscript : s.script entry x = some (entry, s.clock + x) :=
      script_tombstone hdeny.1 hb.1.2 hversion
    refine ⟨hdeny.2, fun _ => .inr ⟨entry, s.clock + x, ?_, hdeny.1,
      h.deny_covers (hb.2.2.1 hdeny.1)⟩⟩
    obtain ⟨hfailed | hfailed, -⟩ | ⟨cached, hcached, hwritten⟩ :=
      execute_cases s choice entry deadline x after
    · exact absurd hfailed hchoice
    · exact absurd (hfailed.symm.trans hscript) (by simp)
    · exact hwritten.trans (hcached.symm.trans hscript)
  | completed entry deadline after =>
    rw [stepCall] at hevent
    have hreports : after.Reports := by
      split_ifs at hevent <;> exact After.resume_reported hevent
    exact absurd hb.2 (hreports.bounded hb.1).1
  | _ => exact absurd hevent (stepCall_aside c s choice id).2

/-- A call that started after the report does not get to see an active session. -/
theorem stepCall_quiet (hrow : s.row.status ≠ .active)
    (hdenied : c.redisEnabled → s.Denied c since) (hpc : pc.Quiet) :
    (s.stepCall c choice pc).pc.Quiet := by
  cases pc with
  | getCache =>
    rw [stepCall]
    split
    · rename_i hredis
      split
      · trivial
      · rename_i entry hentry
        exact h.visible_deny (hdenied hredis.1) hentry
    · trivial
  | getEntry entry =>
    rw [stepCall]
    split_ifs with _ hlive
    · trivial
    · exact absurd hlive.1 hpc
    · trivial
  | getDeadline => trivial
  | getRow deadline =>
    rw [stepCall]
    split
    · trivial
    · exact hrow
  | getCheck deadline session =>
    rw [stepCall, if_neg fun hlive => hpc hlive.1]
    split
    · rfl
    · trivial
  | prepare entry deadline after =>
    obtain rfl : after = .denied := hpc
    rw [stepCall]
    split
    · split
      · trivial
      · rfl
    · trivial
  | execute entry deadline x after =>
    obtain rfl : after = .denied := hpc
    rw [stepCall, execute]
    split
    · trivial
    split
    · trivial
    split_ifs
    · trivial
    · rfl
    · trivial
  | completed entry deadline after =>
    obtain rfl : after = .denied := hpc
    rw [stepCall]
    split_ifs <;> trivial
  | finished reply => exact hpc
  | _ => exact hpc.elim

end RevocationInvariant

end Calls

/-! ### Runs -/

section Runs

variable {c : Config} {expiresAt since : Int} {s : Store}

/-- No step touches the expiry, lowers the version, or makes the row active again. -/
theorem RowStep.keeps {pc pc' : Pc} {row : UserSession} {event : Option Event}
    (h : RowStep s pc pc' row event) :
    row.expiresAt = s.row.expiresAt ∧ s.row.version ≤ row.version ∧
      (row.status = .active → s.row.status = .active) := by
  cases h with
  | same | exchanged => exact ⟨rfl, le_refl _, id⟩
  | reused | revoked => exact ⟨rfl, le_refl _, fun hactive => by cases hactive⟩
  | advanced advance deadline now session hlive hnext =>
    subst hnext
    exact ⟨rfl, Int.le_add_one (le_refl _), id⟩

theorem Store.begin_bounded (s : Store) (op : Op) :
    (s.begin op).Bounded c expiresAt since s.clock s.row := by
  cases op with
  | rotateUserSessionRefresh rotation =>
    rw [begin]
    split
    · trivial
    · split <;> trivial
  | advanceUserSessionAuthVersion advance =>
    rw [begin]
    split <;> trivial
  | _ => trivial

section

variable (h : RevocationInvariant c expiresAt since s)
include h

/-- **Step lemma.** A step of a call keeps the invariant when the tombstones of revoke calls
    land. -/
theorem RevocationInvariant.moved {i : Nat} {choice : Choice} {call : Call}
    (hcall : s.calls[i]? = some call) (hlands : TombstoneLands s (.call i choice)) :
    RevocationInvariant c expiresAt since (s.step c (.call i choice)) := by
  have hmem : call ∈ s.calls := mem_of_getElem? hcall
  have hb := h.calls call hmem
  obtain ⟨hexpires, hversion, hactive⟩ := (stepCall_rowStep c s choice call.pc).keeps
  have hrevoked : s.row.status ≠ .active → (s.stepCall c choice call.pc).row.status ≠ .active :=
    fun hne hactive' => hne (hactive hactive')
  -- what is on the log afterwards, and what it means
  have hreported : .reported ∈ s.log ++ (s.stepCall c choice call.pc).event.toList →
      s.row.status ≠ .active ∧ (c.redisEnabled →
        Denied c since { s with cache := (s.stepCall c choice call.pc).cache }) := by
    intro hmem'
    obtain hold | hnew := mem_append.mp hmem'
    · exact ⟨(h.reported hold).1, fun hredis => h.stepCall_denied hb ((h.reported hold).2 hredis)⟩
    · exact h.stepCall_reported hb (hlands call hcall) (Option.mem_toList.mp hnew)
  rw [step, hcall]
  refine ⟨hexpires.trans h.expires, lt_of_lt_of_le h.version hversion, h.past,
    fun hactive' => h.standing (hactive hactive'), fun entry expires hcache =>
      h.stepCall_cached hb hcache,
    ?_, ?_, ?_⟩
  · intro b hb'
    obtain hold | rfl := mem_or_eq_of_mem_set hb'
    · exact (h.calls b hold).mono (le_refl _) (le_refl _) hrevoked
    · exact h.stepCall_bounded hb
  · intro hlog
    obtain ⟨hrow, hdenied⟩ := hreported hlog
    refine ⟨hrevoked hrow, fun hredis => ?_⟩
    rw [Denied, hexpires]
    exact hdenied hredis
  · intro b hb' hlate
    obtain hold | rfl := mem_or_eq_of_mem_set hb'
    · obtain ⟨hlog, hquiet⟩ := h.late b hold hlate
      exact ⟨mem_append_left _ hlog, hquiet⟩
    · obtain ⟨hlog, hquiet⟩ := h.late call hmem hlate
      obtain ⟨hrow, hdenied⟩ := h.reported hlog
      exact ⟨mem_append_left _ hlog, fun hop => h.stepCall_quiet hrow hdenied (hquiet hop)⟩

theorem RevocationInvariant.started (op : Op) :
    RevocationInvariant c expiresAt since (s.step c (.start op)) := by
  refine ⟨h.expires, h.version, h.past, h.standing, h.cached, ?_, h.reported, ?_⟩
  · exact forall_mem_append.mpr ⟨h.calls, forall_mem_singleton.mpr (s.begin_bounded op)⟩
  refine forall_mem_append.mpr ⟨h.late, forall_mem_singleton.mpr fun hlate => ?_⟩
  refine ⟨of_decide_eq_true hlate, ?_⟩
  rintro rfl
  trivial

/-- While the row is active, the time up to which it has been active goes on. -/
theorem RevocationInvariant.ticked (seconds : Nat) :
    ∃ since', RevocationInvariant c expiresAt since' (s.step c (.tick seconds)) := by
  have hclock : s.clock ≤ s.clock + seconds := by omega
  have hpast := h.past
  by_cases hactive : s.row.status = .active
  · refine ⟨s.clock + seconds, h.expires, h.version, le_refl _, fun _ => rfl, ?_, ?_, ?_, h.late⟩
    · intro entry expires hcache hentry
      have := h.cached entry expires hcache hentry
      exact ⟨by omega, this.2⟩
    · exact fun call hmem => (h.calls call hmem).mono (by omega) hclock id
    · exact fun hlog => absurd hactive (h.reported hlog).1
  · refine ⟨since, h.expires, h.version, le_trans hpast hclock, fun h => absurd h hactive, h.cached,
      ?_, ?_, h.late⟩
    · exact fun call hmem => (h.calls call hmem).mono (le_refl _) hclock id
    intro hlog
    refine ⟨hactive, fun hredis => ?_⟩
    obtain hdone | hdeny := (h.reported hlog).2 hredis
    · exact .inl (le_trans hdone hclock)
    · exact .inr hdeny

end

theorem revocation_step (s : Store) (step : Step)
    (h : ∃ since, RevocationInvariant c expiresAt since s)
    (hlands : TombstoneLands s step) :
    ∃ since, RevocationInvariant c expiresAt since (s.step c step) := by
  obtain ⟨since, h⟩ := h
  cases step with
  | start op => exact ⟨since, h.started op⟩
  | call i choice =>
    cases hcall : s.calls[i]? with
    | none =>
      rw [step, hcall]
      exact ⟨since, h⟩
    | some call => exact ⟨since, h.moved hcall hlands⟩
  | tick seconds => exact h.ticked seconds

theorem RevocationInvariant.idle (h : s.Idle c) :
    RevocationInvariant c s.row.expiresAt s.clock s where
  expires := rfl
  version := h.version
  past := le_refl _
  standing _ := rfl
  cached := h.cached
  calls _ hmem := absurd (h.idle ▸ hmem) not_mem_nil
  reported hlog := absurd (h.log ▸ hlog) not_mem_nil
  late _ hmem := absurd (h.idle ▸ hmem) not_mem_nil

end Runs

/-- **Revoked sessions stay revoked.**  In every run in which the second Redis write of every revoke
    call lands, no `GetUserSessionCached` call that starts after a revoke call has reported the
    session revoked returns it. -/
theorem revoked_session_stays_revoked (c : Config) (s : Store) (steps : List Step) (hs : s.Idle c)
    (hlands : Along (step c) TombstoneLands s steps) :
    ∀ call ∈ (run (step c) s steps).calls, call.op = .getUserSessionCached → call.late = true →
      (∀ entry, call.pc ≠ .finished (.hit entry)) ∧
        ∀ session, call.pc ≠ .finished (.session session) := by
  obtain ⟨since, h⟩ : ∃ since, RevocationInvariant c s.row.expiresAt since (run (step c) s steps) :=
    invariant_along revocation_step s steps ⟨s.clock, .idle hs⟩ hlands
  intro call hmem hop hlate
  have hquiet := (h.late call hmem hlate).2 hop
  refine ⟨fun entry hpc => ?_, fun session hpc => ?_⟩
  all_goals
    rw [hpc] at hquiet
    exact hquiet

/-! ### Three runs -/

def withRedis : Config := { ttl := 60, redisEnabled := true }

theorem newStore_idle : newStore.Idle withRedis := ⟨by decide, rfl, rfl, fun _ _ h => by cases h⟩

/-- A call fills the cache while another one revokes the session, and a third one asks for it
    afterwards. -/
def revokeDuringFill : List Step :=
  [.start .getUserSessionCached, .start (.revokeUserSession "logout")] ++ steps 0 4 ++ steps 1 4 ++
    steps 0 4 ++ steps 1 2 ++ [.start .getUserSessionCached] ++ steps 2 3

theorem revokeDuringFill_denied :
    (∀ call ∈ (run (step withRedis) newStore revokeDuringFill).calls,
      call.op = .getUserSessionCached → call.late = true →
        (∀ entry, call.pc ≠ .finished (.hit entry)) ∧
          ∀ session, call.pc ≠ .finished (.session session)) ∧
      (run (step withRedis) newStore revokeDuringFill).calls.map (fun call =>
        (call.late, call.pc)) =
        [(false, .finished (.failed .inactive)), (false, .finished (.revoked true)),
          (true, .finished (.failed .inactive))] :=
  ⟨revoked_session_stays_revoked withRedis newStore revokeDuringFill newStore_idle (by decide),
    by decide⟩

/-- The fence of a revoke call expires before the row is revoked; an active entry gets into Redis;
    the tombstone is not written. -/
def fenceExpires (fill : List Step) (tombstone : Choice) : List Step :=
  .start (.revokeUserSession "logout") :: steps 0 3 ++ .tick 60 :: fill ++ steps 0 2 ++
    [.call 0 tombstone, .start .getUserSessionCached] ++ steps 2 2

/-- Another call fills the cache with the active session. -/
def fillByGet : List Step := .start .getUserSessionCached :: steps 1 7

/-- Another call advances the session to a higher version. -/
def fillByAdvance : List Step := .start (.advanceUserSessionAuthVersion ⟨1, 1, 2⟩) :: steps 1 6

/-- The session as Redis holds it, at a version. -/
def activeEntry (version : Int) (lastActiveAt : Int) : CacheEntry :=
  ⟨version, version, .active, lastActiveAt, 100, 0, ""⟩

/-- A call that starts after the report gets the revoked session: because the write of the tombstone
    fails, or because Redis refuses the tombstone of the older version. -/
theorem revoked_session_is_returned :
    (run (step withRedis) newStore (fenceExpires fillByGet .fail)).calls.map (fun call =>
      (call.late, call.pc)) =
      [(false, .finished (.revoked true)), (false, .finished (.session newSession)),
        (true, .finished (.hit (activeEntry 1 10)))] ∧
    ∃ session, (run (step withRedis) newStore (fenceExpires fillByAdvance .ok)).calls.map
        (fun call => (call.late, call.pc)) =
      [(false, .finished (.revoked true)), (false, .finished (.session session)),
        (true, .finished (.hit (activeEntry 2 70)))] :=
  ⟨by decide, { newSession with version := 2, userAuthVersion := 2, lastActiveAt := 70 }, by decide⟩

end TokenGateway.Sessions
