import TokenGateway.Base.Log
import TokenGateway.Sessions.Session

namespace TokenGateway.Sessions

open Base Store List

/-!
# Refresh digests are exchanged once

`RotateUserSessionRefresh` decides on an unlocked read and confirms by compare-and-swap.  The proofs
follow three things through every interleaving: the chain of the exchanges, which ends in the digest
of the row; the calls that may still exchange (`Pc.waiting`), whose next digests are unused; and the
calls on their way to revoke the session as reused (`Pc.replaying`), each with an exchange that
justifies it.

* `exchanges` — the exchanges of a log, oldest first;
* `Exchangeable` — some continuation exchanges this digest next;
* `RefreshInvariant`, `refresh_step` — what every step keeps;
* `refresh_digests_single_use` — what follows for every run.
-/

/-! ### Exchanges -/

def Event.exchange? : Event → Option Exchange
  | .exchanged exchange => some exchange
  | _ => none

def Event.IsRevocation : Event → Prop
  | .reused _ _ | .revoked => True
  | .exchanged _ | .reported => False

def exchanges (log : List Event) : List Exchange := log.filterMap Event.exchange?

theorem exchanges_append (log : List Event) (event : Option Event) :
    exchanges (log ++ event.toList) = exchanges log ++ (event.bind Event.exchange?).toList := by
  rw [exchanges, filterMap_append]
  cases event with
  | none => simp [exchanges]
  | some event => cases event <;> rfl

theorem mem_exchanges {log : List Event} {exchange : Exchange} :
    exchange ∈ exchanges log ↔ .exchanged exchange ∈ log := by
  rw [exchanges, mem_filterMap]
  constructor
  · rintro ⟨event, hmem, heq⟩
    cases event with
    | exchanged e =>
      rw [Event.exchange?, Option.some.injEq] at heq
      rwa [← heq]
    | _ => cases heq
  · exact fun h => ⟨_, h, rfl⟩

/-- What each event of the log presupposes: nothing is exchanged after a revocation or by a call for
    which the session has expired; and a session is revoked as reused when an exchanged digest is
    presented later than the limit of that exchange. -/
def EventOk (expiresAt : Int) (before : List Event) : Event → Prop
  | .exchanged exchange => (∀ event ∈ before, ¬ event.IsRevocation) ∧ exchange.now < expiresAt
  | .reused presentedHash now =>
    ∃ exchange, .exchanged exchange ∈ before ∧ exchange.presentedHash = presentedHash ∧
      exchange.validUntil < now
  | .revoked | .reported => True

/-! ### Runs -/

/-- The next digest that a call was given. -/
def Op.nextHash? : Op → Option Digest
  | .rotateUserSessionRefresh rotation => some rotation.nextHash
  | _ => none

/-- The next digest of a call that starts is new: it is not the first digest of the session, and no
    earlier call was given it. -/
def FreshNext (first : Digest) (s : Store) : Step → Prop
  | .start op => ∀ next ∈ op.nextHash?, next ≠ first ∧ ∀ call ∈ s.calls,
    call.op.nextHash? ≠ some next
  | .call _ _ | .tick _ => True

instance (first : Digest) (s : Store) (step : Step) : Decidable (FreshNext first s step) :=
  match step with
  | .start _ => inferInstanceAs (Decidable (∀ next ∈ _, _))
  | .call _ _ => isTrue trivial
  | .tick _ => isTrue trivial

/-- A digest is exchangeable when it is the next one to be exchanged in some continuation. -/
def Exchangeable (c : Config) (first : Digest) (s : Store) (digest : Digest) : Prop :=
  ∃ steps exchange rest, Along (step c) (FreshNext first) s steps ∧
    exchanges (run (step c) s steps).log = exchanges s.log ++ exchange :: rest ∧
    exchange.presentedHash = digest

/-- A session that has just been created, before any call. -/
structure Store.Created (s : Store) : Prop where
  active : s.row.status = .active
  previous : s.row.previousRefreshHash = none
  idle : s.calls = []
  log : s.log = []

/-! ### Where a call stands -/

/-- The rotation of a call that may still exchange. -/
def Pc.waiting : Pc → Option Rotation
  | .rotateDeadline rotation _ | .rotateRead rotation _ _ | .rotateSwap rotation _ _ _ =>
    some rotation
  | _ => none

def Revocation.reuse? : Revocation → Option Rotation
  | .reuse rotation _ => some rotation
  | .revoke .. | .byHash .. | .bulk .. => none

def After.replaying : After → Option Rotation
  | .fence revocation => revocation.reuse?
  | _ => none

/-- The rotation of a call that is about to revoke the session as reused. -/
def Pc.replaying : Pc → Option Rotation
  | .prepare _ _ after | .execute _ _ _ after | .completed _ _ after => after.replaying
  | .commit revocation => revocation.reuse?
  | _ => none

section Moves

variable {c : Config} {s : Store} {choice : Choice} {pc : Pc} {rotation : Rotation}

theorem After.resume_waiting (after : After) (written : Written) :
    (after.resume written).1.waiting = none := by
  unfold After.resume
  split <;> (try split) <;> rfl

theorem After.resume_replaying {after : After} {written : Written}
    (h : (after.resume written).1.replaying = some rotation) : after.replaying = some rotation := by
  unfold After.resume at h
  split at h <;> (try split at h) <;> simp_all [Pc.replaying, After.replaying]

/-- Where a step can take a call, as far as rotations go. -/
inductive RotationStep (s : Store) (pc : Pc) : Pc → Prop where
  | aside (pc' : Pc) (waiting : pc'.waiting = none)
      (replaying : ∀ rotation, pc'.replaying = some rotation → pc.replaying = some rotation) :
      RotationStep s pc pc'
  | retry (rotation : Rotation) (attempts : Nat) (waiting : pc.waiting = some rotation) :
      RotationStep s pc (.rotateDeadline rotation attempts)
  | read (rotation : Rotation) (attempts : Nat) (deadline : Int)
    (waiting : pc.waiting = some rotation) :
      RotationStep s pc (.rotateRead rotation attempts deadline)
  | swap (rotation : Rotation) (attempts : Nat) (deadline : Int)
    (waiting : pc.waiting = some rotation)
      (current : s.row.refreshHash = rotation.presentedHash) :
      RotationStep s pc (.rotateSwap rotation attempts deadline s.row)
  | replay (rotation : Rotation) (entry : CacheEntry) (waiting : pc.waiting = some rotation)
      (previous : s.row.previousRefreshHash = some rotation.presentedHash)
      (overdue : s.row.previousValidUntil < rotation.now) :
      RotationStep s pc (.prepare entry none (.fence (.reuse rotation s.row)))

theorem RotationStep.off {pc' : Pc} (hwaiting : pc'.waiting = none)
    (hreplaying : pc'.replaying = none) :
    RotationStep s pc pc' :=
  .aside pc' hwaiting fun rotation h => absurd (hreplaying.symm.trans h) (by simp)

theorem resume_rotationStep (cache : Option (CacheEntry × Int)) {after : After} (written : Written)
    (h : pc.replaying = after.replaying) : RotationStep s pc (s.resume cache after written).pc :=
  .aside _ (after.resume_waiting written) fun _ hr => h.trans (After.resume_replaying hr)

theorem execute_rotationStep (choice : Choice) (entry : CacheEntry) (deadline : Option Int)
    (expiration : Int)
    (after : After) :
    RotationStep s (.execute entry deadline expiration after)
      (s.execute choice entry deadline expiration after).pc := by
  unfold execute
  split
  · exact resume_rotationStep _ _ rfl
  split
  · exact resume_rotationStep _ _ rfl
  split_ifs
  · exact resume_rotationStep _ _ rfl
  · exact .aside _ rfl fun _ h => h
  · exact resume_rotationStep _ _ rfl

theorem rotateRead_rotationStep (rotation : Rotation) (attempts : Nat) (deadline : Int) :
    RotationStep s (.rotateRead rotation attempts deadline)
      (s.rotateRead rotation attempts deadline).pc := by
  rw [rotateRead]
  split_ifs with _ hcurrent hprevious hlimit
  · exact .swap rotation attempts deadline rfl hcurrent
  · exact .off rfl rfl
  · exact .off rfl rfl
  · exact .replay rotation _ rfl (not_not.mp hprevious) (not_le.mp hlimit)
  · exact .off rfl rfl

/-- **Rotation inversion.** A call that may still exchange could before; one that swaps has read its
    digest as current; one that revokes as reused has read it as the previous one, after its limit.
    -/
theorem stepCall_rotationStep (c : Config) (s : Store) (choice : Choice) (pc : Pc) :
    RotationStep s pc (s.stepCall c choice pc).pc := by
  cases pc with
  | rotateDeadline rotation attempts =>
    cases attempts with
    | zero => exact .off rfl rfl
    | succ attempts => exact .read rotation attempts _ rfl
  | rotateRead rotation attempts deadline =>
    rw [stepCall]
    split
    · exact .off rfl rfl
    · exact rotateRead_rotationStep rotation attempts deadline
  | rotateSwap rotation attempts deadline session =>
    rw [stepCall, rotateSwap]
    split_ifs
    · exact .off rfl rfl
    · exact .off rfl rfl
    · exact .retry rotation attempts rfl
  | execute entry deadline expiration after =>
    exact execute_rotationStep choice entry deadline expiration after
  | prepare entry deadline after =>
    rw [stepCall]
    split
    · split
      · exact resume_rotationStep _ _ rfl
      · exact .aside _ rfl fun _ h => h
    · exact resume_rotationStep _ _ rfl
  | completed entry deadline after =>
    rw [stepCall]
    split_ifs <;> exact resume_rotationStep _ _ rfl
  | commit revocation =>
    rw [stepCall]
    cases revocation <;> (rw [Store.commit]; split_ifs <;> exact .off rfl rfl)
  | advanceTx advance deadline now =>
    rw [stepCall, advanceTx]
    split_ifs <;> exact .off rfl rfl
  | getCache =>
    rw [stepCall]
    split
    · split <;> exact .off rfl rfl
    · exact .off rfl rfl
  | _ =>
    rw [stepCall]
    try split_ifs
    all_goals exact .off rfl rfl

theorem RotationStep.waiting_of {pc' : Pc} (h : RotationStep s pc pc')
    (hwaiting : pc'.waiting = some rotation) : pc.waiting = some rotation := by
  cases h with
  | aside _ hnone => exact absurd (hnone.symm.trans hwaiting) (by simp)
  | replay => cases hwaiting
  | retry _ _ h | read _ _ _ h | swap _ _ _ h => exact h.trans hwaiting

end Moves

/-! ### Invariant -/

/-- What the calls satisfy, of a session that was created with the digest `first`. -/
structure CallsFit (first : Digest) (calls : List Call) : Prop where
  /-- No two calls were given the same next digest. -/
  distinct : ∀ (i j : Nat) a b next, calls[i]? = some a → calls[j]? = some b →
    a.op.nextHash? = some next → b.op.nextHash? = some next → i = j
  unborn : ∀ call ∈ calls, call.op.nextHash? ≠ some first
  waiting : ∀ call ∈ calls, ∀ rotation, call.pc.waiting = some rotation →
    call.op.nextHash? = some rotation.nextHash
  swapping : ∀ call ∈ calls, ∀ rotation attempts deadline session,
    call.pc = .rotateSwap rotation attempts deadline session →
      session.refreshHash = rotation.presentedHash

/-- The call of an exchange cannot exchange again. -/
def Spent (calls : List Call) (exchange : Exchange) : Prop :=
  ∃ (i : Nat) (call : Call), calls[i]? = some call ∧ call.op.nextHash? = some exchange.nextHash ∧
    call.pc.waiting = none

/-- Some exchange has superseded the digest of a rotation, and its limit is over. -/
def Superseded (log : List Event) (rotation : Rotation) : Prop :=
  ∃ exchange ∈ exchanges log, exchange.presentedHash = rotation.presentedHash ∧
    exchange.validUntil < rotation.now

/-- What every reachable state of the session satisfies. -/
structure RefreshInvariant (first : Digest) (expiresAt : Int) (s : Store) : Prop where
  expires : s.row.expiresAt = expiresAt
  /-- Each exchange presents what the one before it has set. -/
  chain : (exchanges s.log).map (·.presentedHash) ++ [s.row.refreshHash] =
    first :: (exchanges s.log).map (·.nextHash)
  nodup : (first :: (exchanges s.log).map (·.nextHash)).Nodup
  calls : CallsFit first s.calls
  spent : ∀ exchange ∈ exchanges s.log, Spent s.calls exchange
  replaying : ∀ call ∈ s.calls, ∀ rotation, call.pc.replaying = some rotation →
    Superseded s.log rotation
  previous : ∀ digest, s.row.previousRefreshHash = some digest →
    ∃ exchange ∈ exchanges s.log, exchange.presentedHash = digest ∧
      exchange.validUntil = s.row.previousValidUntil
  standing : s.row.status = .active → ∀ event ∈ s.log, ¬ event.IsRevocation
  justified : Justified (EventOk expiresAt) s.log

section Steps

variable {first : Digest} {expiresAt : Int} {s : Store} {i : Nat} {call : Call} {pc' : Pc}

/-- A call in the list after one call has moved: the moved one, or an old one. -/
theorem getElem?_setPc {calls : List Call} {i j : Nat} {call b : Call}
    (hcall : calls[i]? = some call)
    (h : (calls.set i { call with pc := pc' })[j]? = some b) :
    i = j ∧ b = { call with pc := pc' } ∨ calls[j]? = some b := by
  have hlt : i < calls.length := (List.getElem?_eq_some_iff.mp hcall).1
  rw [getElem?_set] at h
  by_cases hij : i = j
  · rw [if_pos hij, if_pos hlt, Option.some.injEq] at h
    exact .inl ⟨hij, h.symm⟩
  · rw [if_neg hij] at h
    exact .inr h

theorem CallsFit.move (h : CallsFit first s.calls) (hcall : s.calls[i]? = some call)
    (hstep : RotationStep s call.pc pc') :
    CallsFit first (s.calls.set i { call with pc := pc' }) := by
  have hmem : call ∈ s.calls := mem_of_getElem? hcall
  -- a moved call keeps its operation
  have hop : ∀ (j : Nat) (b : Call), (s.calls.set i { call with pc := pc' })[j]? = some b →
      ∃ a : Call, s.calls[j]? = some a ∧ a.op = b.op := by
    intro j b hb
    obtain ⟨rfl, rfl⟩ | hold := getElem?_setPc hcall hb
    · exact ⟨call, hcall, rfl⟩
    · exact ⟨b, hold, rfl⟩
  refine ⟨?_, ?_, ?_, ?_⟩
  · intro j k a b next ha hb hnext hnext'
    obtain ⟨a', ha', hopa⟩ := hop j a ha
    obtain ⟨b', hb', hopb⟩ := hop k b hb
    rw [← hopa] at hnext
    rw [← hopb] at hnext'
    exact h.distinct j k a' b' next ha' hb' hnext hnext'
  · intro b hb
    obtain hold | rfl := mem_or_eq_of_mem_set hb
    · exact h.unborn b hold
    · exact h.unborn call hmem
  · intro b hb rotation hwaiting
    obtain hold | rfl := mem_or_eq_of_mem_set hb
    · exact h.waiting b hold rotation hwaiting
    · exact h.waiting call hmem rotation (hstep.waiting_of hwaiting)
  · intro b hb rotation attempts deadline session hpc
    obtain hold | rfl := mem_or_eq_of_mem_set hb
    · exact h.swapping b hold rotation attempts deadline session hpc
    subst hpc
    cases hstep with
    | aside _ hnone => cases hnone
    | swap _ _ _ _ hcurrent => exact hcurrent

theorem Spent.move {exchange : Exchange} (h : Spent s.calls exchange)
    (hcall : s.calls[i]? = some call)
    (hstep : RotationStep s call.pc pc') :
    Spent (s.calls.set i { call with pc := pc' }) exchange := by
  obtain ⟨j, b, hb, hnext, hnone⟩ := h
  by_cases hij : i = j
  · subst hij
    obtain rfl : call = b := Option.some.inj (hcall.symm.trans hb)
    refine ⟨i, { call with pc := pc' }, ?_, hnext, ?_⟩
    · rw [getElem?_set_self (List.getElem?_eq_some_iff.mp hcall).1]
    · cases hpc : pc'.waiting with
      | none => rfl
      | some rotation => exact absurd (hnone.symm.trans (hstep.waiting_of hpc)) (by simp)
  · refine ⟨j, b, ?_, hnext, hnone⟩
    rw [getElem?_set_ne hij, hb]

theorem Superseded.append {log : List Event} {rotation : Rotation} (h : Superseded log rotation)
    (event : Option Event) : Superseded (log ++ event.toList) rotation := by
  obtain ⟨exchange, hmem, hrest⟩ := h
  refine ⟨exchange, ?_, hrest⟩
  rw [exchanges_append]
  exact mem_append_left _ hmem

section

variable (h : RefreshInvariant first expiresAt s)
include h

theorem RefreshInvariant.replaying_move (hcall : s.calls[i]? = some call)
    (hstep : RotationStep s call.pc pc')
    (event : Option Event) :
    ∀ b ∈ s.calls.set i { call with pc := pc' }, ∀ rotation, b.pc.replaying = some rotation →
      Superseded (s.log ++ event.toList) rotation := by
  intro b hb rotation hreplaying
  apply Superseded.append
  obtain hold | rfl := mem_or_eq_of_mem_set hb
  · exact h.replaying b hold rotation hreplaying
  cases hstep with
  | aside _ _ hkept =>
    exact h.replaying call (mem_of_getElem? hcall) rotation (hkept rotation hreplaying)
  | retry | read | swap => cases hreplaying
  | replay other entry _ hprevious hover =>
    obtain rfl : other = rotation := Option.some.inj hreplaying
    obtain ⟨exchange, hmem, hpresented, hvalid⟩ := h.previous _ hprevious
    exact ⟨exchange, hmem, hpresented, hvalid ▸ hover⟩

/-- The next digest of a call that exchanges has not been set before. -/
theorem RefreshInvariant.next_fresh (hcall : s.calls[i]? = some call) {rotation : Rotation}
    (hwaiting : call.pc.waiting = some rotation) :
    rotation.nextHash ∉ first :: (exchanges s.log).map (·.nextHash) := by
  have hmem : call ∈ s.calls := mem_of_getElem? hcall
  have hnext := h.calls.waiting call hmem rotation hwaiting
  intro hin
  obtain heq | hin := mem_cons.mp hin
  · exact h.calls.unborn call hmem (heq ▸ hnext)
  obtain ⟨exchange, hexchange, heq⟩ := mem_map.mp hin
  obtain ⟨j, b, hb, hnextb, hnone⟩ := h.spent exchange hexchange
  -- the call of that exchange was given the same digest, so it is this one
  rw [heq] at hnextb
  obtain rfl := h.calls.distinct i j call b _ hcall hb hnext hnextb
  obtain rfl : call = b := Option.some.inj (hcall.symm.trans hb)
  exact absurd (hnone.symm.trans hwaiting) (by simp)

theorem RefreshInvariant.exchanged {op : Op} {late : Bool} {rotation : Rotation} {attempts : Nat}
    {deadline : Int} {session : UserSession} {entry : CacheEntry} {after : After}
    (cache : Option (CacheEntry × Int))
    (hcall : s.calls[i]? = some ⟨op, late, .rotateSwap rotation attempts deadline session⟩)
    (hstep : RotationStep s (.rotateSwap rotation attempts deadline session)
      (.prepare entry (some deadline) after))
    (hlive : s.row.Live rotation.now) (hcurrent : s.row.refreshHash = rotation.presentedHash) :
    RefreshInvariant first expiresAt
      { s with
        row := exchange rotation session.refreshHash s.row
        cache := cache
        calls := s.calls.set i ⟨op, late, .prepare entry (some deadline) after⟩
        log := s.log ++ (some (Event.exchanged ⟨rotation.presentedHash, rotation.nextHash,
          rotation.now, rotation.now + rotation.graceSeconds, s.clock⟩)).toList } := by
  have hmem := mem_of_getElem? hcall
  have hsession := h.calls.swapping _ hmem rotation attempts deadline session rfl
  have hlog : exchanges (s.log ++ (some (Event.exchanged ⟨rotation.presentedHash, rotation.nextHash,
    rotation.now, rotation.now + rotation.graceSeconds, s.clock⟩)).toList) = exchanges s.log ++
        [⟨rotation.presentedHash, rotation.nextHash, rotation.now,
          rotation.now + rotation.graceSeconds, s.clock⟩] := exchanges_append ..
  refine ⟨h.expires, ?_, ?_, h.calls.move hcall hstep, ?_, h.replaying_move hcall hstep _, ?_, ?_,
    ?_⟩
  · rw [hlog, map_append, map_append, ← cons_append, ← h.chain, hcurrent]
    rfl
  · rw [hlog, map_append, ← cons_append, nodup_append]
    refine ⟨h.nodup, by simp, ?_⟩
    rintro a ha b hb rfl
    obtain rfl := mem_singleton.mp hb
    exact h.next_fresh hcall rfl ha
  · intro exchange hexchange
    rw [hlog] at hexchange
    obtain hold | hnew := mem_append.mp hexchange
    · exact (h.spent exchange hold).move hcall hstep
    obtain rfl := mem_singleton.mp hnew
    refine ⟨i, ⟨op, late, .prepare entry (some deadline) after⟩, ?_, ?_, rfl⟩
    · exact getElem?_set_self (List.getElem?_eq_some_iff.mp hcall).1
    · exact h.calls.waiting _ hmem rotation rfl
  · intro digest hdigest
    rw [hlog]
    refine ⟨_, mem_append_right _ mem_cons_self, ?_, rfl⟩
    exact hsession.symm.trans (Option.some.inj hdigest)
  · exact fun hactive => forall_mem_append.mpr ⟨h.standing hactive,
      forall_mem_singleton.mpr fun hrevoked => hrevoked⟩
  · refine justified_append h.justified ?_
    rintro event ⟨⟩
    exact ⟨h.standing hlive.1, h.expires ▸ hlive.2.2⟩

theorem RefreshInvariant.kept (hcall : s.calls[i]? = some call) (hstep : RotationStep s call.pc pc')
    {row : UserSession} (cache : Option (CacheEntry × Int)) {event : Option Event}
    (hquiet : ∀ e ∈ event, e.exchange? = none) (hexpires : row.expiresAt = s.row.expiresAt)
    (hhash : row.refreshHash = s.row.refreshHash)
    (hprevious : row.previousRefreshHash = s.row.previousRefreshHash)
    (hvalid : row.previousValidUntil = s.row.previousValidUntil)
    (hstanding : row.status = .active → s.row.status = .active ∧ ∀ e ∈ event, ¬ e.IsRevocation)
    (hjustified : ∀ e ∈ event, EventOk expiresAt s.log e) :
    RefreshInvariant first expiresAt
      { s with
        row := row
        cache := cache
        calls := s.calls.set i { call with pc := pc' }
        log := s.log ++ event.toList } := by
  have hlog : exchanges (s.log ++ event.toList) = exchanges s.log := by
    rw [exchanges_append]
    cases event with
    | none => simp
    | some event => simp [hquiet]
  refine ⟨hexpires.trans h.expires, ?_, ?_, h.calls.move hcall hstep, ?_,
    h.replaying_move hcall hstep _, ?_, ?_,
    justified_append h.justified hjustified⟩
  · rw [hlog, hhash]
    exact h.chain
  · rw [hlog]
    exact h.nodup
  · intro exchange hexchange
    rw [hlog] at hexchange
    exact (h.spent exchange hexchange).move hcall hstep
  · intro digest hdigest
    rw [hprevious] at hdigest
    rw [hlog, hvalid]
    exact h.previous digest hdigest
  · intro hactive e he
    obtain ⟨hbefore, hnone⟩ := hstanding hactive
    obtain hold | hnew := mem_append.mp he
    · exact h.standing hbefore e hold
    · exact hnone e (Option.mem_toList.mp hnew)

/-- **Step lemma.** A step of a call keeps the invariant. -/
theorem RefreshInvariant.moved {op : Op} {late : Bool} {pc : Pc}
    (hcall : s.calls[i]? = some ⟨op, late, pc⟩)
    (hstep : RotationStep s pc pc') {row : UserSession} (cache : Option (CacheEntry × Int))
    {event : Option Event} (hrow : RowStep s pc pc' row event) :
    RefreshInvariant first expiresAt
      { s with
        row := row, cache := cache, calls := s.calls.set i ⟨op, late, pc'⟩, log := s.log ++
          event.toList } := by
  cases hrow with
  | same _ _ _ hquiet =>
    refine h.kept hcall hstep cache ?_ rfl rfl rfl rfl ?_ ?_
    · exact fun e he => by rw [hquiet e he]; rfl
    · exact fun hactive => ⟨hactive, fun e he => by rw [hquiet e he]; exact id⟩
    · exact fun e he => by rw [hquiet e he]; trivial
  | exchanged rotation attempts deadline session hlive hcurrent =>
    exact h.exchanged cache hcall hstep hlive hcurrent
  | reused rotation session hlive =>
    refine h.kept hcall hstep cache ?_ rfl rfl rfl rfl (fun hactive => by cases hactive) ?_
    · rintro e ⟨⟩
      rfl
    · rintro e ⟨⟩
      obtain ⟨exchange, hmem, hrest⟩ := h.replaying _ (mem_of_getElem? hcall) rotation rfl
      exact ⟨exchange, mem_exchanges.mp hmem, hrest⟩
  | revoked revocation revocation' session now reason hlive =>
    refine h.kept hcall hstep cache ?_ rfl rfl rfl rfl (fun hactive => by cases hactive) ?_
    · rintro e ⟨⟩
      rfl
    · rintro e ⟨⟩
      trivial
  | advanced advance deadline now session hlive hnext =>
    subst hnext
    exact h.kept hcall hstep cache (by simp) rfl rfl rfl rfl (fun hactive => ⟨hactive, by simp⟩)
      (by simp)

end

theorem Store.begin_fits (s : Store) (op : Op) :
    (∀ rotation, (s.begin op).waiting = some rotation → op.nextHash? = some rotation.nextHash) ∧
      (∀ rotation attempts deadline session,
        s.begin op ≠ .rotateSwap rotation attempts deadline session) ∧
          (s.begin op).replaying = none := by
  -- a call that does not wait
  have hoff : ∀ pc : Pc, pc.waiting = none → pc.replaying = none →
      (∀ rotation, pc.waiting = some rotation → op.nextHash? = some rotation.nextHash) ∧
        (∀ rotation attempts deadline session,
          pc ≠ .rotateSwap rotation attempts deadline session) ∧
        pc.replaying = none := by
    intro pc hwaiting hreplaying
    refine ⟨fun rotation h => absurd (hwaiting.symm.trans h) (by simp), ?_, hreplaying⟩
    rintro rotation attempts deadline session rfl
    cases hwaiting
  cases op with
  | rotateUserSessionRefresh rotation =>
    rw [begin]
    split
    · exact hoff _ rfl rfl
    split
    · exact hoff _ rfl rfl
    · refine ⟨?_, fun _ _ _ _ h => (by cases h), rfl⟩
      rintro _ ⟨⟩
      rfl
  | advanceUserSessionAuthVersion advance =>
    rw [begin]
    split_ifs <;> exact hoff _ rfl rfl
  | _ =>
    exact hoff _ rfl rfl

theorem RefreshInvariant.started (h : RefreshInvariant first expiresAt s) {op : Op} (late : Bool)
    (hfresh : FreshNext first s (.start op)) :
    RefreshInvariant first expiresAt { s with calls := s.calls ++ [⟨op, late, s.begin op⟩] } := by
  have hlast : ∀ (j : Nat) (b : Call), (s.calls ++ [⟨op, late, s.begin op⟩])[j]? = some b →
      s.calls[j]? = some b ∨ j = s.calls.length ∧ b = ⟨op, late, s.begin op⟩ := by
    intro j b hb
    rw [getElem?_append] at hb
    split at hb
    · exact .inl hb
    · obtain ⟨hlt, heq⟩ := List.getElem?_eq_some_iff.mp hb
      rw [length_singleton] at hlt
      exact .inr ⟨by omega, by simpa using heq.symm⟩
  -- the new call starts outside of the compare-and-swap and of the reuse branch
  obtain ⟨hwaiting, hswap, hreplaying⟩ := s.begin_fits op
  refine ⟨h.expires, h.chain, h.nodup, ⟨?_, ?_, ?_, ?_⟩, ?_, ?_, h.previous, h.standing,
    h.justified⟩
  · intro j k a b next ha hb hnext hnext'
    obtain ha | ⟨rfl, rfl⟩ := hlast j a ha
    · obtain hb | ⟨rfl, rfl⟩ := hlast k b hb
      · exact h.calls.distinct j k a b next ha hb hnext hnext'
      · exact absurd hnext ((hfresh next hnext').2 a (mem_of_getElem? ha))
    · obtain hb | ⟨rfl, rfl⟩ := hlast k b hb
      · exact absurd hnext' ((hfresh next hnext).2 b (mem_of_getElem? hb))
      · rfl
  · exact forall_mem_append.mpr ⟨h.calls.unborn, forall_mem_singleton.mpr fun hnext =>
      (hfresh first hnext).1 rfl⟩
  · exact forall_mem_append.mpr ⟨h.calls.waiting, forall_mem_singleton.mpr hwaiting⟩
  · exact forall_mem_append.mpr ⟨h.calls.swapping, forall_mem_singleton.mpr
      fun rotation attempts deadline session hpc =>
        absurd hpc (hswap rotation attempts deadline session)⟩
  · intro exchange hexchange
    obtain ⟨j, b, hb, hrest⟩ := h.spent exchange hexchange
    exact ⟨j, b, getElem?_append_left (List.getElem?_eq_some_iff.mp hb).1 ▸ hb, hrest⟩
  · exact forall_mem_append.mpr ⟨h.replaying, forall_mem_singleton.mpr
      fun rotation hpc => absurd (hreplaying.symm.trans hpc) (by simp)⟩

end Steps

/-! ### Runs -/

theorem refresh_step {c : Config} {first : Digest} {expiresAt : Int} (s : Store) (step : Step)
    (h : RefreshInvariant first expiresAt s) (hfresh : FreshNext first s step) :
    RefreshInvariant first expiresAt (s.step c step) := by
  cases step with
  | start op => exact h.started _ hfresh
  | call i choice =>
    rw [step]
    cases hcall : s.calls[i]? with
    | none => exact h
    | some call =>
      exact h.moved hcall (stepCall_rotationStep c s choice call.pc) _
        (stepCall_rowStep c s choice call.pc)
  | tick seconds => exact { h with }

theorem RefreshInvariant.created {s : Store} (h : s.Created) :
    RefreshInvariant s.row.refreshHash s.row.expiresAt s := by
  have hnone : exchanges s.log = [] := by rw [h.log]; rfl
  have hidle : ∀ call, call ∉ s.calls := by simp [h.idle]
  refine ⟨rfl, ?_, ?_, ⟨?_, ?_, ?_, ?_⟩, ?_, ?_, ?_, ?_, ?_⟩
  · rw [hnone]; rfl
  · rw [hnone]; simp
  · intro i j a b next ha
    rw [h.idle] at ha
    cases ha
  iterate 3 exact fun call hmem => (hidle call hmem).elim
  · exact fun exchange hmem => absurd (hnone ▸ hmem) not_mem_nil
  · exact fun call hmem => (hidle call hmem).elim
  · exact fun digest hdigest => absurd (h.previous.symm.trans hdigest) (by simp)
  · exact fun _ event hmem => absurd (h.log ▸ hmem) not_mem_nil
  · rw [h.log]; exact justified_nil _

/-- The next exchange of any continuation presents the digest of the row. -/
theorem RefreshInvariant.exchangeable {c : Config} {first : Digest} {expiresAt : Int} {s : Store}
    (h : RefreshInvariant first expiresAt s) {digest : Digest}
    (hdigest : Exchangeable c first s digest) :
    digest = s.row.refreshHash := by
  obtain ⟨steps, exchange, rest, hfresh, hlog, rfl⟩ := hdigest
  have h' : RefreshInvariant first expiresAt (run (step c) s steps) :=
    invariant_along refresh_step s steps h hfresh
  have hchain := h'.chain
  -- both chains start alike; the later one goes on where the earlier one ends
  rw [hlog, map_append, map_append, ← cons_append, ← h.chain, append_assoc, append_assoc] at hchain
  exact (cons.inj (append_cancel_left hchain)).1

/-- **Refresh digests are single use.** In every run of a new session whose calls get fresh next
    digests: no digest is exchanged twice, at most one is exchangeable, the exchanges form one chain
    that ends in the digest of the row, none follows a revocation or is made by a call for which the
    session has expired, and the session is revoked as reused only after an exchanged digest was
    presented later than its limit. -/
theorem refresh_digests_single_use (c : Config) (s : Store) (steps : List Step) (hs : s.Created)
    (hfresh : Along (step c) (FreshNext s.row.refreshHash) s steps) :
    let s' := run (step c) s steps
    ((exchanges s'.log).map (·.presentedHash)).Nodup ∧
      (∀ a b, Exchangeable c s.row.refreshHash s' a → Exchangeable c s.row.refreshHash s' b →
        a = b) ∧
      (exchanges s'.log).map (·.presentedHash) ++ [s'.row.refreshHash] =
        s.row.refreshHash :: (exchanges s'.log).map (·.nextHash) ∧
      Justified (EventOk s.row.expiresAt) s'.log := by
  intro s'
  have h : RefreshInvariant s.row.refreshHash s.row.expiresAt s' :=
    invariant_along refresh_step s steps (.created hs) hfresh
  refine ⟨?_, ?_, h.chain, h.justified⟩
  · have hall := h.nodup
    rw [← h.chain] at hall
    exact (nodup_append.mp hall).1
  · intro a b ha hb
    rw [h.exchangeable ha, h.exchangeable hb]

/-! ### Two runs -/

def hashA : Digest := ⟨"a0", by decide, by decide⟩
def hashB : Digest := ⟨"b1", by decide, by decide⟩
def hashC : Digest := ⟨"c2", by decide, by decide⟩
def hashD : Digest := ⟨"d3", by decide, by decide⟩

/-- A session created at time 10 that expires at time 100. -/
def newSession : UserSession where
  version := 1
  userAuthVersion := 1
  status := .active
  refreshHash := hashA
  previousRefreshHash := none
  previousValidUntil := 0
  lastActiveAt := 10
  expiresAt := 100
  revokedAt := 0
  revokedReason := ""

def newStore : Store := { clock := 10, row := newSession }

theorem newStore_created : newStore.Created := ⟨rfl, rfl, rfl, rfl⟩

def withoutRedis : Config := { ttl := 60, redisEnabled := false }

def steps (i count : Nat) : List Step := replicate count (.call i .ok)

def refreshAt (presented next : Digest) (now : Int) : Step :=
  .start (.rotateUserSessionRefresh ⟨presented, next, now, 5⟩)

/-- Two calls race with the first digest; the winner's digest is exchanged in turn, and replayed
    much later. -/
def racingRefreshes : List Step :=
  [refreshAt hashA hashB 10, refreshAt hashA hashC 10] ++ steps 0 2 ++ steps 1 2 ++ steps 0 2 ++
    steps 1 3 ++ [.tick 2, refreshAt hashB hashD 12] ++ steps 2 4 ++
    [.tick 18, refreshAt hashB ⟨"e4", by decide, by decide⟩ 30] ++ steps 3 6

theorem racingRefreshes_single_use :
    let log := (run (step withoutRedis) newStore racingRefreshes).log
    log = [.exchanged ⟨hashA, hashB, 10, 15, 10⟩, .exchanged ⟨hashB, hashD, 12, 17, 12⟩,
      .reused hashB 30] ∧
      ((exchanges log).map (·.presentedHash)).Nodup ∧ Justified (EventOk 100) log := by
  have h := refresh_digests_single_use withoutRedis newStore racingRefreshes newStore_created
    (by decide)
  exact ⟨by decide, h.1, h.2.2.2⟩

/-- The row is read before the session expires, and the digest is exchanged after it. -/
def slowRefresh : List Step := refreshAt hashA hashB 10 :: steps 0 2 ++ .tick 200 :: steps 0 2

/-- A call succeeds after the session has expired: it compares the expiry with the time at which it
    was made. -/
theorem refresh_succeeds_after_expiry :
    newStore.Created ∧ Along (step withoutRedis)
      (FreshNext newStore.row.refreshHash) newStore slowRefresh ∧
      ∃ exchange ∈ exchanges (run (step withoutRedis) newStore slowRefresh).log,
        newStore.row.expiresAt < exchange.clock ∧
        ((run (step withoutRedis) newStore slowRefresh).calls.map (·.pc)) =
          [.finished (.session (Store.exchange ⟨hashA, hashB, 10, 5⟩ hashA newSession))] := by
  refine ⟨newStore_created, by decide, ⟨hashA, hashB, 10, 15, 210⟩, ?_, by decide, ?_⟩
  · decide
  · decide

end TokenGateway.Sessions
