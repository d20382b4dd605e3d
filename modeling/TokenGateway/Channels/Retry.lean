import Mathlib.Order.Basic

namespace TokenGateway.Channels

/-!
# The retry loop of a request

`service/channel_select.go` (`RetryParam`, `CacheGetRandomSatisfiedChannel`), and the loop of
`Relay` with `getChannel` in `controller/relay.go`.  Channels come and go between the attempts, so
each turn of the loop has its own answers.

* `cacheGetRandomSatisfiedChannel` — the selection, which walks over the auto groups;
* `relayAttempts` — the attempts of the loop;
* `attempts_bounded` — each group has at most `RetryTimes + 1` of them.
-/

/-- With `ContextKeyAutoGroupIndex` of its context. -/
structure RetryParam where
  retry : Nat := 0
  resetNextTry : Bool := false
  autoGroupIndex : Nat := 0

def RetryParam.increaseRetry (param : RetryParam) : RetryParam :=
  if param.resetNextTry then { param with resetNextTry := false }
    else { param with retry := param.retry + 1 }

structure RetrySettings where
  /-- How many auto groups there are; nothing for a token with a group of its own. -/
  autoGroups : Option Nat
  crossGroupRetry : Bool
  retryTimes : Nat

variable (settings : RetrySettings)

/-- The loop of the selection over the groups that remain, from group `i` on.  `available` says
    whether `GetRandomSatisfiedChannel` finds a channel of a group. -/
def selectFrom (available : Nat → Nat → Bool) :
    Nat → (i priorityRetry : Nat) → RetryParam → Option RetryParam
  | 0, _, _, _ => none
  | remaining + 1, i, priorityRetry, param =>
    if !available i priorityRetry then
      selectFrom available remaining (i + 1) 0 { param with retry := 0, autoGroupIndex := i + 1 }
    else if settings.crossGroupRetry ∧ settings.retryTimes ≤ priorityRetry then
      some { retry := 0, resetNextTry := true, autoGroupIndex := i + 1 }
    else some { param with autoGroupIndex := i }

/-- `CacheGetRandomSatisfiedChannel`; nothing, if it finds no channel. -/
def cacheGetRandomSatisfiedChannel (available : Nat → Nat → Bool) (param : RetryParam) :
    Option RetryParam :=
  match settings.autoGroups with
  | some groups =>
    selectFrom settings available (groups - param.autoGroupIndex) param.autoGroupIndex param.retry
      param
  | none => if available 0 param.retry then some param else none

/-- What a turn of the loop meets. -/
structure Turn where
  available : Nat → Nat → Bool
  /-- The attempt fails, and `DecideRelayRetry` asks for another one. -/
  again : Bool

/-- The attempts of the loop.  The first one takes the channel of the distributor, since there is no
    `ChannelMeta` yet. -/
def relayAttempts : List Turn → (channelMeta : Bool) → RetryParam → Nat
  | [], _, _ => 0
  | turn :: turns, channelMeta, param =>
    if settings.retryTimes < param.retry then 0
    else
      match if channelMeta then cacheGetRandomSatisfiedChannel settings turn.available param
        else some param with
      | none => 0
      | some param => (if turn.again then relayAttempts turns true param.increaseRetry else 0) + 1

def groupsLeft (param : RetryParam) : Nat :=
  match settings.autoGroups with
  | some groups => groups - param.autoGroupIndex
  | none => 1

section Bound

variable {settings} {available : Nat → Nat → Bool} {param next : RetryParam}

section

variable (hretry : param.retry ≤ settings.retryTimes) (hreset : param.resetNextTry = false)
include hretry hreset

/-- A selection spends a try of its group, or leaves the group and the tries that it had. -/
theorem selectFrom_spends {groups remaining i : Nat} (hgroups : i + remaining = groups)
    (h : selectFrom settings available remaining i param.retry param = some next) :
    0 < remaining ∧ next.increaseRetry.resetNextTry = false ∧
      (groups - next.increaseRetry.autoGroupIndex) * (settings.retryTimes + 1) + param.retry + 1 ≤
        remaining * (settings.retryTimes + 1) + next.increaseRetry.retry := by
  induction remaining generalizing i param with
  | zero => cases h
  | succ remaining ih =>
    rw [selectFrom] at h
    refine ⟨Nat.succ_pos _, ?_⟩
    rw [Nat.succ_mul]
    split_ifs at h with hmissing hexhausted
    · obtain ⟨-, hnext, hspent⟩ := @ih ⟨0, param.resetNextTry, i + 1⟩ (Nat.zero_le _) hreset (i + 1)
        (by omega) h
      exact ⟨hnext, by dsimp only at hspent; omega⟩
    · cases h
      refine ⟨rfl, ?_⟩
      simp only [RetryParam.increaseRetry, if_true, show groups - (i + 1) = remaining by omega]
      omega
    · cases h
      simp only [RetryParam.increaseRetry, hreset, Bool.false_eq_true, if_false, true_and,
        show groups - i = remaining + 1 by omega, Nat.succ_mul]
      omega

theorem selection_spends (h : cacheGetRandomSatisfiedChannel settings available param = some next) :
    0 < groupsLeft settings param ∧ next.increaseRetry.resetNextTry = false ∧
      groupsLeft settings next.increaseRetry * (settings.retryTimes + 1) + param.retry + 1 ≤
        groupsLeft settings param * (settings.retryTimes + 1) + next.increaseRetry.retry := by
  unfold cacheGetRandomSatisfiedChannel at h
  unfold groupsLeft
  cases hgroups : settings.autoGroups with
  | some groups =>
    simp only [hgroups] at h ⊢
    have hpos := (selectFrom_spends hretry hreset rfl h).1
    exact selectFrom_spends hretry hreset (by omega) h
  | none =>
    simp only [hgroups] at h ⊢
    split_ifs at h
    cases h
    simp only [RetryParam.increaseRetry, hreset]
    exact ⟨Nat.one_pos, rfl, Nat.le_refl _⟩

end

/-- The loop after its first attempt. -/
theorem relayAttempts_le (turns : List Turn) (hreset : param.resetNextTry = false) :
    relayAttempts settings turns true param ≤
      groupsLeft settings param * (settings.retryTimes + 1) - param.retry := by
  induction turns generalizing param with
  | nil => exact Nat.zero_le _
  | cons turn turns ih =>
    rw [relayAttempts, if_pos rfl]
    by_cases hover : settings.retryTimes < param.retry
    · exact if_pos hover ▸ Nat.zero_le _
    rw [if_neg hover]
    cases hnext : cacheGetRandomSatisfiedChannel settings turn.available param with
    | none => exact Nat.zero_le _
    | some next =>
      obtain ⟨hleft, hfalse, hspent⟩ := selection_spends (Nat.le_of_not_lt hover) hreset hnext
      have hfull := Nat.mul_le_mul_right (settings.retryTimes + 1) hleft
      have hrest := ih hfalse
      dsimp only
      split_ifs <;> omega

end Bound

/-- **Retries are bounded.** Whatever channels there are at each turn, each group has at most
    `RetryTimes + 1` attempts, and the first attempt needs no group. -/
theorem attempts_bounded (turns : List Turn) (autoGroupIndex : Nat) :
    relayAttempts settings turns false { autoGroupIndex } ≤
      max 1 (settings.autoGroups.getD 1) * (settings.retryTimes + 1) := by
  cases turns with
  | nil => exact Nat.zero_le _
  | cons turn turns =>
    have hrest : relayAttempts settings turns true ⟨1, false, autoGroupIndex⟩ ≤ _ - 1 :=
      relayAttempts_le turns rfl
    have hgroups : groupsLeft settings ⟨1, false, autoGroupIndex⟩ ≤
      max 1 (settings.autoGroups.getD 1) := by
      unfold groupsLeft
      cases settings.autoGroups with
      | none => exact Nat.le_refl 1
      | some groups => exact Nat.le_trans (Nat.sub_le ..) (Nat.le_max_right ..)
    have hbound := Nat.mul_le_mul_right (settings.retryTimes + 1) hgroups
    have hfirst := Nat.mul_le_mul_right (settings.retryTimes + 1)
      (Nat.le_max_left 1 (settings.autoGroups.getD 1))
    change (if turn.again then relayAttempts settings turns true ⟨1, false, autoGroupIndex⟩ else 0)
      + 1 ≤ _
    split_ifs <;> omega

/-- Without any auto group the channel of the distributor is tried all the same. -/
theorem attempt_without_groups :
    relayAttempts ⟨some 0, true, 0⟩ [⟨fun _ _ => false, false⟩] false {} = 1 := rfl

end TokenGateway.Channels
