import TokenGateway.Base.Transaction
import TokenGateway.Base.Window

namespace TokenGateway.Limits

open Base List

/-!
# The rate limit in Redis

`redisRateLimitHandler` looks at the list of the successful requests before it runs a request, and
adds to the list afterwards.  Both take several commands, and a request that is running is not
counted.

* `RedisPc`, `RedisLimits.next` — the commands of a request;
* `RedisLimits.step`, `redisRun` — any number of requests of a user, and the expiry of the list;
* `LeavesRoom` — a check counts the requests in flight, or there are none, and the list survives its
  own update;
* `Accounts` — what the list and the requests in flight say about what has been recorded;
* `redis_limit_holds` — such runs keep the limit; `redis_limit_fails` — others do not.

Times are in milliseconds, as in the list.
-/

/-- The next command of a request. -/
inductive RedisPc where
  | llen
  | lindex
  /-- The oldest entry is compared with the clock. -/
  | compare (old : Option Int)
  /-- `EXPIRE` of a request that is turned away. -/
  | refresh
  | running
  | lpush (now : Int)
  | ltrim
  | expire
deriving DecidableEq

/-- The time that a request is about to push. -/
def RedisPc.captured : RedisPc → Option Int
  | .lpush now => some now
  | _ => none

/-- It has been let through, and is not recorded yet. -/
def RedisPc.admitted : RedisPc → Bool
  | .running | .lpush _ => true
  | _ => false

/-- It compares the oldest entry of a full list with the clock. -/
def RedisPc.comparing : RedisPc → Bool
  | .lindex | .compare (some _) => true
  | _ => false

/-- It is between `LPUSH` and `EXPIRE`. -/
def RedisPc.updating : RedisPc → Bool
  | .ltrim | .expire => true
  | _ => false

/-- The list under the key of a user, newest first, and when it expires; and what has been
    recorded. -/
structure SuccessKey where
  list : List Int := []
  deadline : Option Int := none
  now : Int := 0
  recorded : List Int := []

/-- With the requests in flight. -/
structure RedisLimits where
  key : SuccessKey := {}
  requests : List RedisPc := []

section Handler

variable (duration : Int) (successMaxCount : Nat)

/-- `EXPIRE`, which does nothing to a missing key. -/
def SuccessKey.expire (s : SuccessKey) : SuccessKey :=
  if s.list = [] then s else { s with deadline := some (s.now + duration * 1000) }

/-- Keys expire at their deadline. -/
def SuccessKey.purge (s : SuccessKey) : SuccessKey :=
  if s.deadline.any (· ≤ s.now) then { s with list := [], deadline := none } else s

/-- A command of `checkRedisRateLimit` or `recordRedisRequest`, and what the request does next, if
    it is not over. -/
def SuccessKey.next (s : SuccessKey) (succeeded : Bool) : RedisPc → SuccessKey × Option RedisPc
  | .llen =>
    if successMaxCount = 0 ∨ s.list.length < successMaxCount then (s, some .running)
    else (s, some .lindex)
  | .lindex => (s, some (.compare s.list.getLast?))
  | .compare none => (s, none)
  | .compare (some old) =>
    if (s.now - old).tdiv 1000 < duration then (s, some .refresh) else (s, some .running)
  | .refresh => (s.expire duration, none)
  | .running => if succeeded ∧ successMaxCount ≠ 0 then (s, some (.lpush s.now)) else (s, none)
  | .lpush now => ({ s with list := now :: s.list, recorded := now :: s.recorded }, some .ltrim)
  | .ltrim => ({ s with list := s.list.take successMaxCount }, some .expire)
  | .expire => (s.expire duration, none)

inductive RedisStep where
  | start
  /-- A request goes on; `succeeded` is its outcome, for one that is running. -/
  | go (request : Nat) (succeeded : Bool)
deriving DecidableEq

def RedisLimits.step (s : RedisLimits) (step : Nat × RedisStep) : RedisLimits :=
  let key := SuccessKey.purge { s.key with now := s.key.now + step.1 }
  match step.2 with
  | .start => { key, requests := s.requests ++ [.llen] }
  | .go i succeeded =>
    match s.requests[i]? with
    | none => { s with key }
    | some pc =>
      match key.next duration successMaxCount succeeded pc with
      | (key, some pc) => { key, requests := s.requests.set i pc }
      | (key, none) => { key, requests := s.requests.eraseIdx i }

def redisRun (steps : List (Nat × RedisStep)) : RedisLimits :=
  steps.foldl (RedisLimits.step duration successMaxCount) {}

/-- A request looks at the list when that leaves room for every request in flight, or else when no
    other one is in flight until it has compared the oldest entry; and the list does not expire
    between `LPUSH` and `EXPIRE`. -/
def LeavesRoom (s : RedisLimits) (step : Nat × RedisStep) : Prop :=
  (match step.2 with
    | .start => ∀ pc ∈ s.requests, pc.comparing = false
    | .go i _ => s.requests[i]? = some .llen → successMaxCount = 0 ∨ s.requests.length = 1 ∨
        (SuccessKey.purge { s.key with now := s.key.now + step.1 }).list.length +
          s.requests.length ≤ successMaxCount) ∧
    ∀ pc ∈ s.requests, pc.updating = true → s.key.deadline.all (s.key.now + step.1 < ·)

instance (s : RedisLimits) :
    (step : Nat × RedisStep) → Decidable (LeavesRoom successMaxCount s step)
  | (_, .start) => inferInstanceAs (Decidable ((∀ _ ∈ _, _) ∧ ∀ _ ∈ _, _))
  | (_, .go ..) => inferInstanceAs (Decidable ((_ → _) ∧ ∀ _ ∈ _, _))

end Handler

/-! ### The list and the requests in flight -/

open RedisPc

/-- What the list and the requests in flight say about the recorded requests. -/
structure Accounts (w : Int) (S : Nat) (s : SuccessKey) (requests : List RedisPc) : Prop where
  past : ∀ t ∈ s.recorded ++ requests.filterMap captured, t ≤ s.now
  sparse : Sparse S w (s.recorded ++ requests.filterMap captured)
  /-- What is not in the list is too old to count. -/
  outside : ∃ old, s.recorded = s.list ++ old ∧ ∀ t ∈ old, w ≤ s.now - t
  /-- And so is what `LTRIM` cuts off once the admitted requests are recorded. -/
  room : ∃ k, k + requests.countP admitted ≤ S ∧ ∀ t ∈ s.list.drop k, w ≤ s.now - t
  length : s.list.length ≤ S ∨ .ltrim ∈ requests
  deadline : (∀ pc ∈ requests, pc.updating = false) → ∀ D ∈ s.deadline, ∀ t ∈ s.list, t + w ≤ D
  alone : ∀ pc ∈ requests, pc.comparing = true → requests = [pc]
  oldest : ∀ old, .compare (some old) ∈ requests →
    old ≤ s.now ∧ ∀ t ∈ s.list.drop (S - 1), t = old

variable {w d : Int} {S : Nat} {s : SuccessKey} {pc : RedisPc} {requests rest : List RedisPc}

theorem Accounts.perm (h : Accounts w S s requests) (hperm : requests ~ rest) :
    Accounts w S s rest where
  past t ht := h.past t (((hperm.filterMap _).append_left _).mem_iff.mpr ht)
  sparse := h.sparse.subperm ((hperm.filterMap _).append_left _).symm.subperm
  outside := h.outside
  room := hperm.countP_eq _ ▸ h.room
  length := h.length.imp_right hperm.mem_iff.mp
  deadline hnone := h.deadline fun pc hpc => hnone pc (hperm.mem_iff.mp hpc)
  alone pc hpc hcomparing := by
    rw [h.alone pc (hperm.mem_iff.mpr hpc) hcomparing] at hperm
    exact perm_singleton.mp hperm.symm
  oldest old hold := h.oldest old (hperm.mem_iff.mpr hold)

/-- When the list expires, nothing of the log counts any more. -/
theorem Accounts.wait (h : Accounts w S s requests) (delay : Nat)
    (hlive : ∀ pc ∈ requests, pc.updating = true → s.deadline.all (s.now + delay < ·)) :
    Accounts w S (SuccessKey.purge { s with now := s.now + delay }) requests := by
  obtain ⟨old, hsplit, hold⟩ := h.outside
  obtain ⟨k, hk, hdrop⟩ := h.room
  have hlater : ∀ {t}, w ≤ s.now - t → w ≤ s.now + delay - t := fun ht => by omega
  have hpast : ∀ t ∈ s.recorded ++ requests.filterMap captured, t ≤ s.now + delay :=
    fun t ht => by
      have := h.past t ht
      omega
  unfold SuccessKey.purge
  split_ifs with hexpired
  · obtain ⟨D, hD, hle⟩ : ∃ D, s.deadline = some D ∧ D ≤ s.now + delay := by
      simpa [Option.any_eq_true] using hexpired
    have hnone : ∀ pc ∈ requests, pc.updating = false := by
      intro pc hpc
      by_contra hupdating
      have := hlive pc hpc (by simpa using hupdating)
      simp only [hD, Option.all_some, decide_eq_true_eq] at this
      omega
    refine { h with
      past := hpast
      outside := ⟨s.recorded, rfl, fun t ht => ?_⟩
      room := ⟨k, hk, by simp⟩
      length := .inl (Nat.zero_le S)
      deadline := nofun
      oldest := fun old hcompare => ⟨?_, by simp⟩ }
    · rw [hsplit] at ht
      rcases mem_append.mp ht with ht | ht
      · have := h.deadline hnone D hD t ht
        dsimp only
        omega
      · exact hlater (hold t ht)
    · have := (h.oldest old hcompare).1
      dsimp only
      omega
  · refine { h with
      past := hpast
      outside := ⟨old, hsplit, fun t ht => hlater (hold t ht)⟩
      room := ⟨k, hk, fun t ht => hlater (hdrop t ht)⟩
      oldest := fun old hcompare => ⟨?_, (h.oldest old hcompare).2⟩ }
    have := (h.oldest old hcompare).1
    dsimp only
    omega

/-- The recorded requests that count, and the admitted ones, are within the limit. -/
theorem Accounts.recent_le (h : Accounts w S s requests) :
    (recent s.now w s.recorded).length + requests.countP admitted ≤ S := by
  obtain ⟨old, hsplit, hold⟩ := h.outside
  obtain ⟨k, hk, hdrop⟩ := h.room
  have hnone {times : List Int} (htimes : ∀ t ∈ times, w ≤ s.now - t) :
      recent s.now w times = [] :=
    filter_eq_nil_iff.mpr fun t ht => by simpa using htimes t ht
  rw [hsplit, recent_append, hnone hold, append_nil, ← take_append_drop k s.list, recent_append,
    hnone hdrop, append_nil]
  have hle : (recent s.now w (s.list.take k)).length ≤ k :=
    Nat.le_trans (length_filter_le _ _) (length_take_le ..)
  omega

/-- While another request is in flight, nobody compares. -/
theorem Accounts.idle (h : Accounts w S s (pc :: rest)) :
    ∀ other ∈ rest, other.comparing = false := by
  intro other hother
  by_contra hcomparing
  have honly := h.alone other (mem_cons_of_mem pc hother) (by simpa using hcomparing)
  obtain ⟨-, rfl⟩ := cons_eq_cons.mp honly
  cases hother

theorem Accounts.drop (h : Accounts w S s (pc :: rest)) (hpc : pc ≠ .ltrim)
    (hdeadline : (∀ pc ∈ rest, pc.updating = false) →
      ∀ D ∈ s.deadline, ∀ t ∈ s.list, t + w ≤ D) : Accounts w S s rest where
  past t ht := h.past t ((((sublist_cons_self pc rest).filterMap _).append_left _).subset ht)
  sparse := h.sparse.subperm (((sublist_cons_self pc rest).filterMap _).append_left _).subperm
  outside := h.outside
  room := by
    obtain ⟨k, hk, hdrop⟩ := h.room
    exact ⟨k, Nat.le_trans (Nat.add_le_add_left (sublist_cons_self pc rest).countP_le k) hk, hdrop⟩
  length := h.length.imp_right fun hmem => (mem_cons.mp hmem).resolve_left hpc.symm
  deadline := hdeadline
  alone other hother hcomparing := absurd hcomparing (by simp [h.idle other hother])
  oldest old hold := h.oldest old (mem_cons_of_mem pc hold)

theorem Accounts.add (h : Accounts w S s rest) (hidle : ∀ other ∈ rest, other.comparing = false)
    (hupdating : pc.updating = false)
    (hcaptured : ∀ t ∈ pc.captured, t ≤ s.now ∧
      Sparse S w (t :: (s.recorded ++ rest.filterMap captured)))
    (hadmitted : pc.admitted = true → ∃ k, k + (rest.countP admitted + 1) ≤ S ∧
      ∀ t ∈ s.list.drop k, w ≤ s.now - t)
    (hcomparing : pc.comparing = true → rest = [])
    (holdest : ∀ old, pc = .compare (some old) →
      old ≤ s.now ∧ ∀ t ∈ s.list.drop (S - 1), t = old) : Accounts w S s (pc :: rest) where
  past t ht := by
    cases hc : pc.captured with
    | none =>
      rw [filterMap_cons_none hc] at ht
      exact h.past t ht
    | some now =>
      rw [filterMap_cons_some hc, perm_middle.mem_iff] at ht
      rcases mem_cons.mp ht with rfl | ht
      · exact (hcaptured t hc).1
      · exact h.past t ht
  sparse := by
    cases hc : pc.captured with
    | none =>
      rw [filterMap_cons_none hc]
      exact h.sparse
    | some now =>
      rw [filterMap_cons_some hc]
      exact (hcaptured now hc).2.subperm perm_middle.subperm
  outside := h.outside
  room := by
    rw [countP_cons]
    split_ifs with hpc
    · exact hadmitted hpc
    · exact h.room
  length := h.length.imp_right (mem_cons_of_mem pc)
  deadline hnone := h.deadline fun other hother => hnone other (mem_cons_of_mem pc hother)
  alone other hother hcompares := by
    rcases mem_cons.mp hother with rfl | hother
    · rw [hcomparing hcompares]
    · exact absurd hcompares (by simp [hidle other hother])
  oldest old hold := by
    rcases mem_cons.mp hold with heq | hold
    · exact holdest old heq.symm
    · exact h.oldest old hold

/-- `EXPIRE` gives the list the time that its newest entry counts. -/
theorem Accounts.expire (h : Accounts (d * 1000) S s (pc :: rest)) (hpc : pc ≠ .ltrim) :
    Accounts (d * 1000) S (s.expire d) rest := by
  obtain ⟨old, hsplit, -⟩ := h.outside
  unfold SuccessKey.expire
  split_ifs with hnone
  · refine h.drop hpc fun _ D _ t ht => ?_
    rw [hnone] at ht
    cases ht
  · have hcovers : ∀ t ∈ s.list, t + d * 1000 ≤ s.now + d * 1000 := fun t ht => by
      have := h.past t (mem_append_left _ (hsplit ▸ mem_append_left old ht))
      omega
    have hset : Accounts (d * 1000) S { s with deadline := some (s.now + d * 1000) } (pc :: rest) :=
      { h with
        deadline := by
          rintro _ D ⟨⟩
          exact hcovers }
    refine hset.drop hpc ?_
    rintro _ D ⟨⟩
    exact hcovers

theorem Accounts.push {now : Int} (h : Accounts w S s (.lpush now :: rest)) :
    Accounts w S { s with list := now :: s.list, recorded := now :: s.recorded }
      (.ltrim :: rest) := by
  obtain ⟨old, hsplit, hold⟩ := h.outside
  obtain ⟨k, hk, hdrop⟩ := h.room
  rw [countP_cons_of_pos rfl] at hk
  have hidle : ∀ pc ∈ RedisPc.ltrim :: rest, pc.comparing = false :=
    forall_mem_cons.mpr ⟨rfl, h.idle⟩
  exact
    { past := fun t ht => h.past t (perm_middle.mem_iff.mpr ht)
      sparse := h.sparse.subperm perm_middle.symm.subperm
      outside := ⟨old, congrArg (now :: ·) hsplit, hold⟩
      room := ⟨k + 1, by rw [countP_cons_of_neg (by decide)]; omega, hdrop⟩
      length := .inr mem_cons_self
      deadline := fun hnone => absurd (hnone .ltrim mem_cons_self) nofun
      alone := fun pc hpc hcompares => absurd ((hidle pc hpc).symm.trans hcompares) nofun
      oldest := fun old hcompare => absurd (hidle _ hcompare) nofun }

theorem Accounts.trim (h : Accounts w S s (.ltrim :: rest)) :
    Accounts w S { s with list := s.list.take S } (.expire :: rest) := by
  obtain ⟨old, hsplit, hold⟩ := h.outside
  obtain ⟨k, hk, hdrop⟩ := h.room
  have hidle : ∀ pc ∈ RedisPc.expire :: rest, pc.comparing = false :=
    forall_mem_cons.mpr ⟨rfl, h.idle⟩
  refine
    { past := h.past
      sparse := h.sparse
      outside := ⟨s.list.drop S ++ old, ?_, forall_mem_append.mpr ⟨fun t ht => hdrop t ?_, hold⟩⟩
      room := ⟨k, hk, fun t ht => hdrop t (((take_sublist ..).drop k).subset ht)⟩
      length := .inl (length_take_le ..)
      deadline := fun hnone => absurd (hnone .expire mem_cons_self) nofun
      alone := fun pc hpc hcompares => absurd ((hidle pc hpc).symm.trans hcompares) nofun
      oldest := fun old hcompare => absurd (hidle _ hcompare) nofun }
  · rw [← append_assoc, take_append_drop]
    exact hsplit
  · exact (drop_sublist_drop_left _ (by omega)).subset ht

/-- **Command lemma.** A request that goes on keeps the account. -/
theorem Accounts.next (hS : 0 < S) (h : Accounts (d * 1000) S s (pc :: rest))
    (hroom : pc = .llen → rest = [] ∨ s.list.length + rest.length < S) (succeeded : Bool) :
    match s.next d S succeeded pc with
    | (s', some pc') => Accounts (d * 1000) S s' (pc' :: rest)
    | (s', none) => Accounts (d * 1000) S s' rest := by
  have hidle := h.idle
  have hrest : pc.updating = false → Accounts (d * 1000) S s rest := fun hpc =>
    h.drop (fun heq => by rw [heq] at hpc; cases hpc) fun hnone =>
      h.deadline (forall_mem_cons.mpr ⟨hpc, hnone⟩)
  cases pc with
  | llen =>
    have hcount := countP_le_length (p := admitted) (l := rest)
    unfold SuccessKey.next
    dsimp only
    split_ifs with hshort
    · have hlt := hshort.resolve_left (Nat.ne_of_gt hS)
      have hfits : s.list.length + rest.countP admitted < S := by
        rcases hroom rfl with rfl | hroom
        · exact hlt
        · omega
      exact (hrest rfl).add hidle rfl nofun (fun _ => ⟨s.list.length, by omega, by simp⟩) nofun
        nofun
    · refine (hrest rfl).add hidle rfl nofun nofun (fun _ => ?_) nofun
      exact (hroom rfl).resolve_right (by omega)
  | lindex =>
    obtain ⟨-, rfl⟩ := cons_eq_cons.mp (h.alone _ mem_cons_self rfl)
    obtain ⟨old, hsplit, -⟩ := h.outside
    refine (hrest rfl).add hidle rfl nofun nofun (fun _ => rfl) fun last heq => ?_
    obtain ⟨init, hinit⟩ := getLast?_eq_some_iff.mp (RedisPc.compare.inj heq)
    refine ⟨h.past last (mem_append_left _ (by simp [hsplit, hinit])), fun t ht => ?_⟩
    -- nobody is updating the list, so it has no more than `S` entries
    have hlength : s.list.length ≤ S := h.length.resolve_right (by simp)
    rw [hinit, length_append, length_singleton] at hlength
    rw [hinit] at ht
    have hle : init.length ≤ S - 1 := by omega
    simpa using (drop_sublist_drop_left (init ++ [last]) hle).subset ht
  | compare old =>
    cases old with
    | none => exact hrest rfl
    | some old =>
      obtain ⟨-, rfl⟩ := cons_eq_cons.mp (h.alone _ mem_cons_self rfl)
      obtain ⟨hpast, hlast⟩ := h.oldest old mem_cons_self
      unfold SuccessKey.next
      dsimp only
      split_ifs with hyoung
      · exact (hrest rfl).add hidle rfl nofun nofun nofun nofun
      refine (hrest rfl).add hidle rfl nofun (fun _ => ⟨S - 1, ?_, fun t ht => ?_⟩) nofun nofun
      · exact Nat.le_of_eq (Nat.sub_add_cancel hS)
      -- the seconds are truncated, which makes no difference to a whole number of them
      rw [Int.tdiv_eq_ediv_of_nonneg (by omega)] at hyoung
      have := hlast t ht
      omega
  | refresh => exact h.expire nofun
  | running =>
    unfold SuccessKey.next
    dsimp only
    split_ifs with hrecord
    · have hruns : (RedisPc.running :: rest).countP admitted =
          rest.countP admitted + 1 := countP_cons_of_pos rfl
      refine (hrest rfl).add hidle rfl ?_ (fun _ => hruns ▸ h.room) nofun nofun
      rintro _ ⟨⟩
      refine ⟨Int.le_refl _, (hrest rfl).sparse.cons ?_⟩
      have hroom := h.recent_le
      rw [hruns] at hroom
      have hcaptured : (recent s.now (d * 1000) (rest.filterMap captured)).length ≤
          rest.countP admitted := by
        refine Nat.le_trans (length_filter_le _ _) ?_
        rw [length_filterMap_eq_countP]
        exact countP_mono_left fun pc _ hpc => by cases pc <;> trivial
      rw [recent_append, length_append]
      omega
    · exact hrest rfl
  | lpush now => exact h.push
  | ltrim => exact h.trim
  | expire => exact h.expire nofun

/-- **Step lemma.** -/
theorem Accounts.step {s : RedisLimits} (hS : 0 < S) (h : Accounts (d * 1000) S s.key s.requests)
    {step : Nat × RedisStep} (hroom : LeavesRoom S s step) :
    Accounts (d * 1000) S (s.step d S step).key (s.step d S step).requests := by
  obtain ⟨delay, step⟩ := step
  obtain ⟨hstarts, hlive⟩ := hroom
  have hwait := h.wait delay hlive
  unfold RedisLimits.step
  dsimp only at hstarts ⊢
  generalize SuccessKey.purge { s.key with now := s.key.now + delay } = key at hwait hstarts
  cases step with
  | start =>
    have hadd : Accounts _ S key (.llen :: s.requests) :=
      hwait.add hstarts rfl nofun nofun nofun nofun
    exact hadd.perm (perm_append_singleton ..).symm
  | go i succeeded =>
    dsimp only at hstarts ⊢
    cases hfound : s.requests[i]? with
    | none => exact hwait
    | some pc =>
      obtain ⟨hi, rfl⟩ := List.getElem?_eq_some_iff.mp hfound
      have hnext := (hwait.perm (getElem_cons_eraseIdx_perm hi).symm).next hS
        (fun hllen => ?_) succeeded
      · dsimp only
        generalize SuccessKey.next d S key succeeded s.requests[i] = out at hnext
        obtain ⟨key, _ | pc⟩ := out
        · exact hnext
        · exact hnext.perm (set_perm_cons_eraseIdx hi pc).symm
      · rw [hfound, hllen] at hstarts
        have hlength := length_eraseIdx_add_one hi
        rcases hstarts rfl with hzero | honly | hfits
        · omega
        · exact .inl (length_eq_zero_iff.mp (by omega))
        · exact .inr (by omega)

/-- Without a limit nothing is recorded. -/
theorem recorded_without_limit (steps : List (Nat × RedisStep)) :
    (redisRun d 0 steps).key.recorded = [] := by
  refine (invariant_run (I := fun s : RedisLimits => s.key.recorded = [] ∧
    ∀ pc ∈ s.requests, pc = .llen ∨ pc = .running) ?_ {} steps ⟨rfl, nofun⟩).1
  rintro s ⟨delay, step⟩ ⟨hnone, hpcs⟩
  have hpurge : (SuccessKey.purge { s.key with now := s.key.now + delay }).recorded = [] := by
    unfold SuccessKey.purge
    split_ifs <;> exact hnone
  unfold RedisLimits.step
  dsimp only
  cases step with
  | start => exact ⟨hpurge, forall_mem_append.mpr ⟨hpcs, by simp⟩⟩
  | go i succeeded =>
    dsimp only
    cases hfound : s.requests[i]? with
    | none => exact ⟨hpurge, hpcs⟩
    | some pc =>
      rcases hpcs pc (mem_of_getElem? hfound) with rfl | rfl
      · refine ⟨hpurge, fun pc hpc => ?_⟩
        rcases mem_or_eq_of_mem_set hpc with hpc | rfl
        · exact hpcs pc hpc
        · exact .inr rfl
      · simp only [SuccessKey.next, ne_eq, not_true_eq_false, and_false, if_false]
        exact ⟨hpurge, fun pc hpc => hpcs pc (mem_of_mem_eraseIdx hpc)⟩

/-- **The limit holds** in every run in which a request that looks at the list leaves room for those
    in flight, or is the only one, and in which the list does not expire while it is updated: no
    window has more recorded requests. -/
theorem redis_limit_holds (minutes S : Nat) (steps : List (Nat × RedisStep))
    (hroom : Along (RedisLimits.step (minutes * 60) S) (LeavesRoom S) {} steps) :
    Sparse S (minutes * 60 * 1000) (redisRun (minutes * 60) S steps).key.recorded := by
  rcases Nat.eq_zero_or_pos S with rfl | hS
  · rw [recorded_without_limit]
    exact .nil
  have hstart : Accounts (minutes * 60 * 1000) S {} [] :=
    ⟨nofun, .nil, ⟨[], rfl, nofun⟩, ⟨0, Nat.zero_le S, nofun⟩, .inl (Nat.zero_le S), nofun, nofun,
      nofun⟩
  have h := invariant_along
    (I := fun s : RedisLimits => Accounts (minutes * 60 * 1000) S s.key s.requests)
    (fun s step hs hstep => hs.step hS hstep) {} steps hstart hroom
  exact h.sparse.subperm (sublist_append_left ..).subperm

/-- Two requests side by side, and a third one when the first window is over. -/
def sideBySide : List (Nat × RedisStep) :=
  [(0, .start), (0, .start), (0, .go 1 true), (0, .go 0 true), (5, .go 0 true), (1, .go 1 true),
   (0, .go 1 true), (0, .go 0 true), (0, .go 0 true), (0, .go 1 true), (0, .go 0 true),
   (0, .go 0 true), (60000, .start), (0, .go 0 true), (0, .go 0 true), (0, .go 0 true),
   (0, .go 0 true)]

theorem sideBySide_limit_holds : (redisRun 60 2 sideBySide).key.recorded = [60006, 5, 6] ∧
    Sparse 2 ((1 : Nat) * 60 * 1000) (redisRun ((1 : Nat) * 60) 2 sideBySide).key.recorded :=
  ⟨by decide, redis_limit_holds 1 2 sideBySide (by decide)⟩

/-- Two requests at the same time. -/
def together : List (Nat × RedisStep) :=
  [(0, .start), (0, .start), (0, .go 0 true), (0, .go 1 true), (0, .go 0 true), (0, .go 1 true),
   (0, .go 0 true), (0, .go 1 true)]

/-- A request that is recorded just before the list of an earlier one expires. -/
def tooLate : List (Nat × RedisStep) :=
  [(0, .start), (0, .go 0 true), (0, .go 0 true), (0, .go 0 true), (0, .go 0 true), (0, .go 0 true),
   (59999, .start), (0, .go 0 true), (0, .go 0 true), (0, .go 0 true), (1, .go 0 true),
     (0, .go 0 true),
   (0, .start), (0, .go 0 true), (0, .go 0 true), (0, .go 0 true), (0, .go 0 true), (0, .go 0 true),
   (0, .start), (0, .go 0 true), (0, .go 0 true), (0, .go 0 true)]

/-- Both requests see an empty list.  Neither is the limit kept if they run one by one and a list
    expires between `LPUSH` and `EXPIRE`. -/
theorem redis_limit_fails : ¬ Sparse 1 60000 (redisRun 60 1 together).key.recorded ∧
    ¬ Sparse 2 60000 (redisRun 60 2 tooLate).key.recorded := by
  have htogether : (redisRun 60 1 together).key.recorded = [0, 0] := by decide
  have htooLate : (redisRun 60 2 tooLate).key.recorded = [60000, 60000, 59999, 0] := by decide
  rw [htogether, htooLate]
  exact ⟨fun h => absurd (h 0) (by decide), fun h => absurd (h 59999) (by decide)⟩

end TokenGateway.Limits
