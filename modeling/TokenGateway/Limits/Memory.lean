import Mathlib.Data.List.DropRight
import Mathlib.Logic.Function.Basic
import TokenGateway.Base.Window

namespace TokenGateway.Limits

open Base List

/-!
# The rate limit in memory

`InMemoryRateLimiter` keeps, for each key, the times of the accepted requests and the number of
those that are still running.  A key that has been idle for the expiration of the limiter is
forgotten with its times, whatever the window is.

* `request`, `reserve`, `complete`, `deleteExpiredEntries` — the limiter;
* `MemoryLimits.step` — the steps of `memoryRateLimitHandler`, and evictions;
* `Logged`, `run_invariant` — what holds if a window ends before its key is forgotten;
* `memory_limit_holds_iff` — the limits hold iff the window is not longer than the expiration.

Times are in nanoseconds, windows and the times in the queues in seconds.
-/

/-! ### The limiter -/

def unix (now : Int) : Int := now / 1000000000

/-- `RateLimitKeyExpirationDuration`, twenty minutes. -/
def rateLimitKeyExpirationDuration : Int := 20 * 60 * 1000000000

structure RateLimitEntry where
  key : String
  lastActive : Int
  requests : List Int := []

/-- `removeExpired`, on the queue from oldest to newest. -/
def removeExpired (now duration : Int) (requests : List Int) : List Int :=
  match requests.head?, requests.getLast? with
  | some head, some tail =>
    if now - head < duration then requests
    else if now - tail ≥ duration then []
    else requests.dropWhile fun t => now - t ≥ duration
  | _, _ => requests

/-- The keys are in the order of the LRU list, the most recent one first. -/
structure InMemoryRateLimiter where
  lru : List RateLimitEntry := []
  reservations : String → Int := fun _ => 0
  expirationDuration : Int

namespace InMemoryRateLimiter

variable (l : InMemoryRateLimiter) (key : String)

/-- The queue of a key in `store`. -/
def requests : List Int := ((l.lru.find? (·.key = key)).map (·.requests)).getD []

/-- `touchEntry`, with the queue that the caller leaves in the entry. -/
def touchEntry (now : Int) (requests : List Int) : InMemoryRateLimiter :=
  { l with lru := { key, lastActive := now, requests } :: l.lru.filter (·.key ≠ key) }

def deleteExpiredEntries (now : Int) : InMemoryRateLimiter :=
  if l.expirationDuration ≤ 0 then l
  else { l with lru := l.lru.rdropWhile fun entry => now - entry.lastActive ≥ l.expirationDuration }

def request (maxRequestNum : Nat) (duration now : Int) : Bool × InMemoryRateLimiter :=
  let requests := removeExpired (unix now) duration (l.requests key)
  if requests.length < maxRequestNum then
    (true, l.touchEntry key now (requests ++ [unix now]))
  else (false, l.touchEntry key now requests)

/-- `Reserve`; the reservation is known by its key. -/
def reserve (maxRequests : Nat) (duration now : Int) : Bool × InMemoryRateLimiter :=
  let requests := removeExpired (unix now) duration (l.requests key)
  let l := l.touchEntry key now requests
  if requests.length + l.reservations key ≥ maxRequests then (false, l)
  else (true, { l with
    reservations := Function.update l.reservations key (l.reservations key + 1) })

/-- `Complete`, the first call for a reservation. -/
def complete (success : Bool) (now : Int) : InMemoryRateLimiter :=
  let l := { l with reservations := Function.update l.reservations key (l.reservations key - 1) }
  if success then l.touchEntry key now (l.requests key ++ [unix now]) else l

end InMemoryRateLimiter

/-! ### The handler -/

def totalKey (user : Int) : String := "MRRL" ++ toString user

def successKey (user : Int) : String := "MRRLS" ++ toString user

/-- The requests between the two checks by their users, the running ones by their reservations, and
    what has been admitted and recorded under which key. -/
structure MemoryLimits where
  limiter : InMemoryRateLimiter
  now : Int := 0
  checked : List Int := []
  running : List String := []
  (admitted succeeded : List (String × Int) := [])

inductive MemoryStep where
  /-- A request arrives, and the total limit is checked. -/
  | check (user : Int)
  /-- A request that has passed it asks for a reservation. -/
  | reserve (user : Int)
  /-- A running request ends. -/
  | complete (key : String) (success : Bool)
  | evict

section Handler

variable (duration : Int) (totalMaxCount successMaxCount : Nat)

/-- `memoryRateLimitHandler`, one section under the lock; what no request can do changes nothing. -/
def MemoryLimits.act (s : MemoryLimits) : MemoryStep → MemoryLimits
  | .check user =>
    let key := totalKey user
    let (allowed, limiter) := if totalMaxCount > 0
      then s.limiter.request key totalMaxCount duration s.now else (true, s.limiter)
    if allowed then
      { s with limiter, checked := user :: s.checked, admitted := (key, unix s.now) :: s.admitted }
    else { s with limiter }
  | .reserve user =>
    if user ∈ s.checked then
      let s := { s with checked := s.checked.erase user }
      let key := successKey user
      if successMaxCount > 0 then
        match s.limiter.reserve key successMaxCount duration s.now with
        | (true, limiter) => { s with limiter, running := key :: s.running }
        | (false, limiter) => { s with limiter }
      else s
    else s
  | .complete key success =>
    if key ∈ s.running then
      { s with
        limiter := s.limiter.complete key success s.now
        running := s.running.erase key
        succeeded := if success then (key, unix s.now) :: s.succeeded else s.succeeded }
    else s
  | .evict => { s with limiter := s.limiter.deleteExpiredEntries s.now }

def MemoryLimits.step (s : MemoryLimits) (step : Nat × MemoryStep) : MemoryLimits :=
  MemoryLimits.act duration totalMaxCount successMaxCount { s with now := s.now + step.1 } step.2

/-- A run of the limiter that `rateLimitFactory` has initialized first. -/
def memoryRun (steps : List (Nat × MemoryStep)) : MemoryLimits :=
  steps.foldl (MemoryLimits.step duration totalMaxCount successMaxCount)
    { limiter := { expirationDuration := rateLimitKeyExpirationDuration } }

end Handler

def timesOf (key : String) (log : List (String × Int)) : List Int :=
  (log.filter (·.1 = key)).map (·.2)

theorem timesOf_cons (key key' : String) (t : Int) (log : List (String × Int)) :
    timesOf key ((key', t) :: log) = if key' = key then t :: timesOf key log
      else timesOf key log := by
  unfold timesOf
  by_cases h : key' = key <;> simp [h]

/-! ### What the limiter does to its queues -/

variable {l : InMemoryRateLimiter} {now d : Int} {key : String}

/-- On a sorted queue, `removeExpired` keeps what is recent. -/
theorem removeExpired_eq {requests : List Int} (h : requests.Pairwise (· ≤ ·)) :
    removeExpired now d requests = recent now d requests := by
  have hdrop : (requests.dropWhile fun t => now - t ≥ d) = recent now d requests :=
    dropWhile_eq_recent h
  unfold removeExpired
  split
  · rename_i head tail hhead htail
    split_ifs with hfresh hgone
    · obtain ⟨rest, rfl⟩ := head?_eq_some_iff.mp hhead
      rw [← hdrop, dropWhile_cons_of_neg (by simpa using hfresh)]
    · -- the newest request is too old, and so are all
      obtain ⟨init, rfl⟩ := getLast?_eq_some_iff.mp htail
      refine (filter_eq_nil_iff.mpr fun t ht => ?_).symm
      have hle : t ≤ tail := by
        rcases mem_append.mp ht with ht | ht
        · exact (pairwise_append.mp h).2.2 t ht tail (mem_singleton_self _)
        · exact le_of_eq (mem_singleton.mp ht)
      rw [decide_eq_true_eq]
      omega
    · exact hdrop
  · rename_i hnone
    cases requests with
    | nil => rfl
    | cons head rest =>
      exact absurd (getLast?_eq_getLast_of_ne_nil (cons_ne_nil head rest)) (hnone head _ rfl)

theorem requests_touchEntry (l : InMemoryRateLimiter) (key : String) (now : Int)
    (requests : List Int)
    (key' : String) : (l.touchEntry key now requests).requests key' =
      if key' = key then requests else l.requests key' := by
  unfold InMemoryRateLimiter.requests InMemoryRateLimiter.touchEntry
  by_cases h : key' = key
  · simp [h]
  have hne : ¬ key = key' := fun heq => h heq.symm
  have hother : ∀ entry : RateLimitEntry, (entry.key ≠ key ∧ entry.key = key') ↔ entry.key = key' :=
    fun entry => ⟨And.right, fun hentry => ⟨fun heq => h (hentry.symm.trans heq), hentry⟩⟩
  simp [hother, if_neg h, hne]

/-- Queues are sorted, and no time in them is after the last activity of their key. -/
def InMemoryRateLimiter.Ordered (l : InMemoryRateLimiter) (now : Int) : Prop :=
  ∀ entry ∈ l.lru, entry.requests.Pairwise (· ≤ ·) ∧ entry.lastActive ≤ now ∧
    ∀ t ∈ entry.requests, t ≤ unix entry.lastActive

theorem unix_mono {now now' : Int} (h : now ≤ now') : unix now ≤ unix now' :=
  Int.ediv_le_ediv (by decide) h

theorem InMemoryRateLimiter.Ordered.requests (h : l.Ordered now) (key : String) :
    (l.requests key).Pairwise (· ≤ ·) ∧ ∀ t ∈ l.requests key, t ≤ unix now := by
  unfold InMemoryRateLimiter.requests
  cases hfound : l.lru.find? (·.key = key) with
  | none => exact ⟨Pairwise.nil, fun t ht => absurd ht not_mem_nil⟩
  | some entry =>
    obtain ⟨hsorted, hactive, htimes⟩ := h entry (mem_of_find?_eq_some hfound)
    exact ⟨hsorted, fun t ht => (htimes t ht).trans (unix_mono hactive)⟩

theorem InMemoryRateLimiter.Ordered.touch (h : l.Ordered now) {requests : List Int}
    (hsorted : requests.Pairwise (· ≤ ·)) (htimes : ∀ t ∈ requests, t ≤ unix now) :
    (l.touchEntry key now requests).Ordered now := by
  intro entry hentry
  rcases mem_cons.mp hentry with rfl | hentry
  · exact ⟨hsorted, le_rfl, htimes⟩
  · exact h entry (mem_filter.mp hentry).1

theorem pairwise_append_now {requests : List Int} (h : requests.Pairwise (· ≤ ·))
    (htimes : ∀ t ∈ requests, t ≤ now) :
    (requests ++ [now]).Pairwise (· ≤ ·) ∧ ∀ t ∈ requests ++ [now], t ≤ now := by
  refine ⟨pairwise_append.mpr ⟨h, pairwise_singleton _ _, fun t ht other hother => ?_⟩,
    forall_mem_append.mpr ⟨htimes, forall_mem_singleton.mpr le_rfl⟩⟩
  rw [mem_singleton.mp hother]
  exact htimes t ht

/-- What the queues have covered they still cover. -/
def Keeps (now d : Int) (l l' : InMemoryRateLimiter) : Prop :=
  ∀ key times, Covers now d times (l.requests key) → Covers now d times (l'.requests key)

theorem keeps_touchEntry (l : InMemoryRateLimiter) (now : Int) (key : String) {requests : List Int}
    (h : ∀ times, Covers (unix now) d times (l.requests key) → Covers (unix now) d times requests) :
    Keeps (unix now) d l (l.touchEntry key now requests) := by
  intro key' times hcovers
  rw [requests_touchEntry]
  split_ifs with hkey
  · exact h times (hkey ▸ hcovers)
  · exact hcovers

/-- An eviction forgets a queue only after the expiration, when the window has ended. -/
theorem keeps_deleteExpiredEntries (h : l.Ordered now)
    (hd : d * 1000000000 ≤ l.expirationDuration) :
    Keeps (unix now) d l (l.deleteExpiredEntries now) := by
  unfold InMemoryRateLimiter.deleteExpiredEntries
  split_ifs with hnever
  · exact fun _ _ hcovers => hcovers
  have hsplit := rdropWhile_append_rtakeWhile (l := l.lru)
    (p := fun entry => now - entry.lastActive ≥ l.expirationDuration)
  have hidle : ∀ entry ∈ l.lru.rtakeWhile fun entry =>
    now - entry.lastActive ≥ l.expirationDuration, now - entry.lastActive ≥ l.expirationDuration :=
    fun entry hentry => by simpa using mem_rtakeWhile_imp hentry
  intro key times
  unfold InMemoryRateLimiter.requests
  generalize l.lru.rdropWhile (fun entry => now - entry.lastActive ≥ l.expirationDuration) =
    kept at hsplit
  generalize l.lru.rtakeWhile (fun entry => now - entry.lastActive ≥ l.expirationDuration) =
    dropped at hsplit hidle
  rw [← hsplit, find?_append]
  cases kept.find? (·.key = key) with
  | some entry => exact fun hcovers => hcovers
  | none =>
    cases hgone : dropped.find? (·.key = key) with
    | none => exact fun hcovers => hcovers
    | some entry =>
      have hmem := mem_of_find?_eq_some hgone
      have hlong := hidle entry hmem
      obtain ⟨-, -, htimes⟩ := h entry (hsplit ▸ mem_append_right kept hmem)
      refine fun hcovers => hcovers.cleared (filter_eq_nil_iff.mpr fun t ht => ?_)
      have hle := htimes t ht
      have hnow : unix entry.lastActive + d ≤ unix now := by
        unfold unix
        omega
      rw [decide_eq_true_eq]
      omega

/-! ### The limits -/

/-- A log of requests under a limit: the queues cover it, and there is room for the busy
    requests. -/
structure Logged (now d : Int) (n : Nat) (l : InMemoryRateLimiter) (busy : String → Nat)
    (log : List (String × Int)) : Prop where
  covered : ∀ key, Covers now d (timesOf key log) (l.requests key)
  bounded : ∀ key, (recent now d (timesOf key log)).length + busy key ≤ n
  sparse : ∀ key, Sparse n d (timesOf key log)

namespace Logged

variable {n : Nat} {l' : InMemoryRateLimiter} {busy : String → Nat} {log : List (String × Int)}

section

variable (h : Logged now d n l busy log)
include h

theorem later {now' : Int} (hle : now ≤ now') : Logged now' d n l busy log where
  covered key := (h.covered key).later hle
  bounded key := (Nat.add_le_add_right (recent_length_le hle) _).trans (h.bounded key)
  sparse := h.sparse

theorem keep (hl : Keeps now d l l') : Logged now d n l' busy log :=
  { h with covered := fun key => hl key _ (h.covered key) }

theorem push (hl : Keeps now d l l') (hcovered : Covers now d (now :: timesOf key log)
      (l'.requests key))
    (hroom : (recent now d (timesOf key log)).length + busy key < n) :
    Logged now d n l' busy ((key, now) :: log) := by
  refine ⟨fun key' => ?_, fun key' => ?_, fun key' => ?_⟩ <;> rw [timesOf_cons] <;>
    split_ifs with hkey
  · exact hkey ▸ hcovered
  · exact hl key' _ (h.covered key')
  · subst hkey
    have hle : (recent now d (now :: timesOf key log)).length ≤
      (recent now d (timesOf key log)).length + 1 := by
      unfold recent
      rw [filter_cons]
      split_ifs <;> simp
    omega
  · exact h.bounded key'
  · exact hkey ▸ (h.sparse key).cons (by omega)
  · exact h.sparse key'

end

end Logged

section Invariant

variable {T S : Nat} {s : MemoryLimits}

structure MemoryInvariant (d : Int) (T S : Nat) (s : MemoryLimits) : Prop where
  ordered : s.limiter.Ordered s.now
  expiration : s.limiter.expirationDuration = rateLimitKeyExpirationDuration
  reserved : ∀ key, (s.running.count key : Int) ≤ s.limiter.reservations key
  admitted : Logged (unix s.now) d T s.limiter (fun _ => 0) s.admitted
  succeeded : Logged (unix s.now) d S s.limiter s.running.count s.succeeded

theorem MemoryInvariant.wait (h : MemoryInvariant d T S s) (delay : Nat) :
    MemoryInvariant d T S { s with now := s.now + delay } := by
  have hle : s.now ≤ s.now + delay := by omega
  exact { h with
    ordered := fun entry hentry =>
      ⟨(h.ordered entry hentry).1, (h.ordered entry hentry).2.1.trans hle,
        (h.ordered entry hentry).2.2⟩
    admitted := h.admitted.later (unix_mono hle)
    succeeded := h.succeeded.later (unix_mono hle) }

theorem InMemoryRateLimiter.Ordered.pruned (h : l.Ordered now) (d : Int) (key : String) :
    removeExpired (unix now) d (l.requests key) = recent (unix now) d (l.requests key) ∧
    (recent (unix now) d (l.requests key)).Pairwise (· ≤ ·) ∧
    ∀ t ∈ recent (unix now) d (l.requests key), t ≤ unix now := by
  obtain ⟨hsorted, htimes⟩ := h.requests key
  exact ⟨removeExpired_eq hsorted, hsorted.filter _, fun t ht => htimes t (mem_filter.mp ht).1⟩

theorem check_invariant (hT : 0 < T) (h : MemoryInvariant d T S s) (user : Int) :
    MemoryInvariant d T S (MemoryLimits.act d T S s (.check user)) := by
  obtain ⟨hpruned, hsorted, htimes⟩ := h.ordered.pruned d (totalKey user)
  obtain ⟨hsorted', htimes'⟩ := pairwise_append_now hsorted htimes
  simp only [MemoryLimits.act, if_pos hT, InMemoryRateLimiter.request, hpruned]
  generalize totalKey user = key at *
  by_cases hroom : (recent (unix s.now) d (s.limiter.requests key)).length < T
  · simp only [hroom, if_true]
    have hkeeps := keeps_touchEntry s.limiter s.now key fun times hcovers =>
      (hcovers.pruned (d := d)).more (unix s.now)
    refine { h with
      ordered := h.ordered.touch hsorted' htimes'
      admitted := h.admitted.push hkeeps ?_ ?_
      succeeded := h.succeeded.keep hkeeps }
    · rw [requests_touchEntry, if_pos rfl]
      exact (h.admitted.covered key).pruned.push (unix s.now)
    · exact Nat.lt_of_le_of_lt (h.admitted.covered key _ le_rfl) hroom
  · simp only [hroom]
    have hkeeps := keeps_touchEntry s.limiter s.now key fun times hcovers => hcovers.pruned (d := d)
    exact { h with
      ordered := h.ordered.touch hsorted htimes
      admitted := h.admitted.keep hkeeps
      succeeded := h.succeeded.keep hkeeps }

theorem reserve_invariant (hS : 0 < S) (h : MemoryInvariant d T S s) (user : Int) :
    MemoryInvariant d T S (MemoryLimits.act d T S s (.reserve user)) := by
  obtain ⟨hpruned, hsorted, htimes⟩ := h.ordered.pruned d (successKey user)
  simp only [MemoryLimits.act, if_pos hS, InMemoryRateLimiter.reserve, hpruned]
  generalize successKey user = key at *
  have hkeeps := keeps_touchEntry s.limiter s.now key fun times hcovers => hcovers.pruned (d := d)
  by_cases hchecked : user ∈ s.checked
  · rw [if_pos hchecked]
    by_cases hfull : ((recent (unix s.now) d (s.limiter.requests key)).length : Int) +
      s.limiter.reservations key ≥ S
    · rw [if_pos (by exact hfull)]
      exact { h with
        ordered := h.ordered.touch hsorted htimes
        admitted := h.admitted.keep hkeeps
        succeeded := h.succeeded.keep hkeeps }
    · rw [if_neg (by exact hfull)]
      have hcover := h.succeeded.covered key _ le_rfl
      refine { h with
        ordered := h.ordered.touch hsorted htimes
        reserved := fun key' => ?_
        admitted := { h.admitted.keep hkeeps with }
        succeeded := { h.succeeded.keep hkeeps with bounded := fun key' => ?_ } }
      · have hold := h.reserved key'
        by_cases hkey : key' = key
        · subst hkey
          simp only [count_cons_self, Function.update_self, InMemoryRateLimiter.touchEntry]
          omega
        · simp only [count_cons_of_ne (Ne.symm hkey), Function.update_of_ne hkey]
          exact hold
      · have hold := h.succeeded.bounded key'
        by_cases hkey : key' = key
        · subst hkey
          have hreserved := h.reserved key'
          simp only [count_cons_self]
          omega
        · simp only [count_cons_of_ne (Ne.symm hkey)]
          exact hold
  · rw [if_neg hchecked]
    exact h

theorem complete_invariant (h : MemoryInvariant d T S s) (key : String) (success : Bool) :
    MemoryInvariant d T S (MemoryLimits.act d T S s (.complete key success)) := by
  unfold MemoryLimits.act
  dsimp only
  by_cases hrunning : key ∈ s.running
  · rw [if_pos hrunning]
    have hcount : 0 < s.running.count key := count_pos_iff.mpr hrunning
    have hreserved : ∀ key', ((s.running.erase key).count key' : Int) ≤ Function.update
        s.limiter.reservations key (s.limiter.reservations key - 1) key' := by
      intro key'
      have hold := h.reserved key'
      by_cases hkey : key' = key
      · subst hkey
        rw [count_erase_self, Function.update_self]
        omega
      · rw [count_erase_of_ne hkey, Function.update_of_ne hkey]
        exact hold
    have hsucceeded : Logged (unix s.now) d S s.limiter (s.running.erase key).count s.succeeded :=
      { h.succeeded with
        bounded := fun key' => (Nat.add_le_add_left ((erase_sublist ..).count_le key') _).trans
          (h.succeeded.bounded key') }
    cases success with
    | false =>
      exact { h with
        reserved := hreserved, admitted := { h.admitted with }
        succeeded := { hsucceeded with } }
    | true =>
      obtain ⟨hsorted, htimes⟩ := h.ordered.requests key
      obtain ⟨hsorted', htimes'⟩ := pairwise_append_now hsorted htimes
      have hkeeps := keeps_touchEntry s.limiter s.now key fun times hcovers =>
        hcovers.more (d := d) (unix s.now)
      have hbounded := h.succeeded.bounded key
      have hpush := hsucceeded.push hkeeps
        (by
          rw [requests_touchEntry, if_pos rfl]
          exact (hsucceeded.covered key).push _)
        (by
          rw [count_erase_self]
          omega)
      exact { h with
        ordered := h.ordered.touch hsorted' htimes'
        reserved := hreserved
        admitted := { h.admitted.keep hkeeps with }
        succeeded := { hpush with } }
  · rw [if_neg hrunning]
    exact h

section

variable (hT : 0 < T) (hS : 0 < S) (hd : d * 1000000000 ≤ rateLimitKeyExpirationDuration)
include hT hS hd

/-- A step under the lock, if a window ends before its key is forgotten. -/
theorem act_invariant (h : MemoryInvariant d T S s) (step : MemoryStep) :
    MemoryInvariant d T S (MemoryLimits.act d T S s step) := by
  cases step with
  | check user => exact check_invariant hT h user
  | reserve user => exact reserve_invariant hS h user
  | complete key success => exact complete_invariant h key success
  | evict =>
    have hkeeps := keeps_deleteExpiredEntries h.ordered (h.expiration.symm ▸ hd)
    have hlru : ∃ lru, s.limiter.deleteExpiredEntries s.now = { s.limiter with lru } ∧
        ∀ entry ∈ lru, entry ∈ s.limiter.lru := by
      unfold InMemoryRateLimiter.deleteExpiredEntries
      split_ifs
      · exact ⟨s.limiter.lru, rfl, fun _ hentry => hentry⟩
      · exact ⟨_, rfl, fun _ hentry => List.IsPrefix.subset (by apply rdropWhile_prefix) hentry⟩
    obtain ⟨lru, heq, hsub⟩ := hlru
    rw [MemoryLimits.act]
    rw [heq] at hkeeps ⊢
    exact { h with
      ordered := fun entry hentry => h.ordered entry (hsub entry hentry)
      admitted := h.admitted.keep hkeeps
      succeeded := h.succeeded.keep hkeeps }

/-- The limits hold in every run whose window ends before its key is forgotten. -/
theorem run_invariant (steps : List (Nat × MemoryStep)) :
    MemoryInvariant d T S (memoryRun d T S steps) := by
  unfold memoryRun
  have hstart : MemoryInvariant d T S
    { limiter := { expirationDuration := rateLimitKeyExpirationDuration } } :=
    ⟨fun entry hentry => absurd hentry not_mem_nil, rfl, fun _ => le_rfl,
      ⟨fun _ => .nil, fun _ => Nat.zero_le T, fun _ => .nil⟩,
      ⟨fun _ => .nil, fun _ => Nat.zero_le S, fun _ => .nil⟩⟩
  generalize MemoryLimits.mk _ _ _ _ _ _ = s at hstart
  induction steps generalizing s with
  | nil => exact hstart
  | cons step rest ih => exact ih _ (act_invariant hT hS hd (hstart.wait step.1) step.2)

end

end Invariant

/-! ### Windows that outlive their keys -/

/-- The window of the configuration, `rateLimitDurationSeconds`: 60 seconds a minute, up to the
    largest `int64`. -/
def rateLimitDurationSeconds (minutes : Nat) : Int :=
  if 9223372036854775807 / 60 < minutes then 9223372036854775807 else minutes * 60

/-- No window has more admitted requests of a user than the total limit, nor more successful ones
    than the other limit. -/
def WithinLimits (d : Int) (T S : Nat) (s : MemoryLimits) : Prop :=
  ∀ user, Sparse T d (timesOf (totalKey user) s.admitted) ∧
    Sparse S d (timesOf (successKey user) s.succeeded)

section Crowd

variable {T S : Nat}

/-- Requests of one user, all at once. -/
def crowd (n : Nat) : List (Nat × MemoryStep) := replicate n (0, .check 1)

theorem removeExpired_now {n : Nat} (hd : 0 < d) :
    removeExpired now d (replicate n now) = replicate n now := by
  rw [removeExpired_eq (pairwise_replicate.mpr (.inr le_rfl)), recent, filter_eq_self]
  intro t ht
  rw [eq_of_mem_replicate ht]
  simpa using hd

theorem check_admits {s : MemoryLimits} {user : Int} {queue : List Int}
    (hqueue : removeExpired (unix s.now) d (s.limiter.requests (totalKey user)) = queue)
    (hroom : queue.length < T) : MemoryLimits.act d T S s (.check user) =
      { s with limiter := s.limiter.touchEntry (totalKey user) s.now (queue ++ [unix s.now])
               checked := user :: s.checked
               admitted := (totalKey user, unix s.now) :: s.admitted } := by
  have hT : T > 0 := Nat.zero_lt_of_lt hroom
  simp [MemoryLimits.act, InMemoryRateLimiter.request, hqueue, hroom, hT]

/-- After `n` requests at once, within the limit. -/
structure Crowded (n : Nat) (s : MemoryLimits) : Prop where
  now : s.now = 0
  expiration : s.limiter.expirationDuration = rateLimitKeyExpirationDuration
  idle : ∀ entry ∈ s.limiter.lru, entry.lastActive = 0
  queue : s.limiter.requests (totalKey 1) = replicate n 0
  admitted : s.admitted = replicate n (totalKey 1, 0)

theorem crowd_run (hd : 0 < d) {n : Nat} (hn : n ≤ T) : Crowded n (memoryRun d T S (crowd n)) := by
  induction n with
  | zero => exact ⟨rfl, rfl, nofun, rfl, rfl⟩
  | succ n ih =>
    obtain ⟨hnow, hexpiration, hidle, hqueue, hadmitted⟩ := ih (Nat.le_of_succ_le hn)
    rw [crowd, replicate_succ', memoryRun, foldl_append, foldl_cons]
    change Crowded _ (MemoryLimits.step d T S (memoryRun d T S (crowd n)) _)
    generalize memoryRun d T S (crowd n) = s at *
    have hwait : { s with now := s.now + (0 : Nat) } = s := by simp
    have hpruned : removeExpired (unix s.now) d (s.limiter.requests (totalKey 1)) =
      replicate n 0 := by
      rw [hqueue, hnow]
      exact removeExpired_now hd
    rw [MemoryLimits.step, hwait, check_admits hpruned (by simpa using Nat.lt_of_succ_le hn)]
    refine ⟨hnow, hexpiration, fun entry hentry => ?_, ?_, ?_⟩
    · rcases mem_cons.mp hentry with rfl | hentry
      · exact hnow
      · exact hidle entry (mem_filter.mp hentry).1
    · rw [requests_touchEntry, hnow, replicate_succ']
      rfl
    · rw [hadmitted, hnow]
      rfl

/-- Once the key is forgotten, another request is admitted in the same window. -/
theorem crowd_exceeds (hd : rateLimitKeyExpirationDuration < d * 1000000000) (hT : 0 < T) :
    ¬ Sparse T d (timesOf (totalKey 1) (memoryRun d T S (crowd T ++
      [(rateLimitKeyExpirationDuration.toNat, .evict), (0, .check 1)])).admitted) := by
  have hpos : 0 < d := by
    unfold rateLimitKeyExpirationDuration at hd
    omega
  obtain ⟨hnow, hexpiration, hidle, -, hadmitted⟩ := crowd_run (S := S) hpos (Nat.le_refl T)
  rw [memoryRun, foldl_append, foldl_cons, foldl_cons]
  change ¬ Sparse T d (timesOf (totalKey 1) (MemoryLimits.step d T S (MemoryLimits.step d T S
    (memoryRun d T S (crowd T)) _) _).admitted)
  generalize memoryRun d T S (crowd T) = s at *
  have hforgotten : (s.limiter.deleteExpiredEntries rateLimitKeyExpirationDuration).requests
    (totalKey 1) = [] := by
    have hpositive : ¬ rateLimitKeyExpirationDuration ≤ 0 := by decide
    have hnone : (s.limiter.lru.rdropWhile fun entry => rateLimitKeyExpirationDuration -
        entry.lastActive ≥ s.limiter.expirationDuration) = [] := by
      rw [rdropWhile_eq_nil_iff]
      intro entry hentry
      simp [hidle entry hentry, hexpiration]
    rw [InMemoryRateLimiter.deleteExpiredEntries, hexpiration, if_neg hpositive]
    rw [hexpiration] at hnone
    simp only [InMemoryRateLimiter.requests, hnone, find?_nil, Option.map_none, Option.getD_none]
  have hlater : s.now + (rateLimitKeyExpirationDuration.toNat : Int) =
    rateLimitKeyExpirationDuration := by
    rw [hnow]
    decide
  have hpruned : removeExpired (unix rateLimitKeyExpirationDuration) d
      ((s.limiter.deleteExpiredEntries rateLimitKeyExpirationDuration).requests (totalKey 1)) =
        [] := by
    rw [hforgotten]
    rfl
  have hwait : rateLimitKeyExpirationDuration + ((0 : Nat) : Int) =
    rateLimitKeyExpirationDuration := by
    decide
  have hlast : (MemoryLimits.step d T S (MemoryLimits.step d T S s
      (rateLimitKeyExpirationDuration.toNat, .evict)) (0, .check 1)).admitted =
        (totalKey 1, unix rateLimitKeyExpirationDuration) :: s.admitted := by
    simp only [MemoryLimits.step, hlater, MemoryLimits.act.eq_def _ _ _ _ .evict, hwait]
    rw [check_admits hpruned hT]
  -- all of them are in the window from 0 on
  intro hsparse
  have hall := hsparse 0
  have htimes : timesOf (totalKey 1) ((totalKey 1, unix rateLimitKeyExpirationDuration) ::
    s.admitted) = unix rateLimitKeyExpirationDuration :: replicate T 0 := by
    rw [timesOf_cons, hadmitted]
    simp [timesOf]
  have hwindow : unix rateLimitKeyExpirationDuration < d := by
    unfold unix
    omega
  rw [hlast, htimes, inWindow, filter_eq_self.mpr] at hall
  · simp only [length_cons, length_replicate] at hall
    omega
  intro t ht
  rcases mem_cons.mp ht with rfl | ht
  · simpa using ⟨by decide, hwindow⟩
  · rw [eq_of_mem_replicate ht]
    simpa using hpos

end Crowd

/-- The limits hold in every run, for every user, iff the window is at most as long as the
    expiration that the limiter was initialized with. -/
theorem memory_limit_holds_iff (minutes T S : Nat) (hT : 0 < T) (hS : 0 < S) :
    (∀ steps, WithinLimits (rateLimitDurationSeconds minutes) T S
      (memoryRun (rateLimitDurationSeconds minutes) T S steps)) ↔ minutes ≤ 20 := by
  have hlong : rateLimitDurationSeconds minutes * 1000000000 ≤ rateLimitKeyExpirationDuration ↔
    minutes ≤ 20 := by
    unfold rateLimitDurationSeconds rateLimitKeyExpirationDuration
    split_ifs <;> omega
  rw [← hlong]
  constructor
  · intro h
    by_contra hd
    exact crowd_exceeds (not_le.mp hd) hT (h _ 1).1
  · intro hd steps user
    have hinvariant := run_invariant hT hS hd steps
    exact ⟨hinvariant.admitted.sparse _, hinvariant.succeeded.sparse _⟩

theorem twentyMinutes_limit_holds : 0 < 5 ∧ 0 < 3 ∧ ∀ steps,
    WithinLimits (rateLimitDurationSeconds 20) 5 3
      (memoryRun (rateLimitDurationSeconds 20) 5 3 steps) :=
  ⟨by decide, by decide, (memory_limit_holds_iff 20 5 3 (by decide) (by decide)).mpr le_rfl⟩

/-- With a window of an hour and a limit of one, a second request is admitted after twenty
    minutes. -/
theorem hourly_limit_fails : ¬ WithinLimits (rateLimitDurationSeconds 60) 1 1
    (memoryRun (rateLimitDurationSeconds 60) 1 1 (crowd 1 ++
      [(rateLimitKeyExpirationDuration.toNat, .evict), (0, .check 1)])) :=
  fun h => crowd_exceeds (by decide) (by decide) (h 1).1

end TokenGateway.Limits
