import Mathlib.Logic.Function.Basic
import TokenGateway.Channels.Channel

namespace TokenGateway.Channels

open List
open Expression (trimSpace trimText)

/-!
# The status of channels and of their keys

`model/channel.go` (`GetKeys`, `GetNextEnabledKey`, `handlerMultiKeyUpdate`, `UpdateChannelStatus`).

* `ChannelInfo.keyStatus`, `ChannelInfo.setKeyStatus` — the status list of a channel with several
  keys;
* `handlerMultiKeyUpdate` — a new status for one key, or for the channel;
* `savedRow` — what `UpdateChannelStatus` saves;
* `nextEnabledIdx`, `afterNextKey` — `GetNextEnabledKey`: the key of the next request.
-/

/-! ### Keys -/

structure KeyCodec where
  /-- The elements of a JSON array, as texts. -/
  unmarshalArray : String → Option (List String)

variable (codec : KeyCodec)

/-- `GetKeys`: the elements of a JSON array, or else lines. -/
def Channel.getKeys (channel : Channel) : List String :=
  if channel.key = "" then []
  else
    let trimmed := trimSpace channel.key
    let array := if trimmed.toList.head? = some '[' then codec.unmarshalArray trimmed else none
    array.getD (split '\n' (trimText (· == '\n') channel.key))

namespace ChannelInfo

variable (info : ChannelInfo)

/-- The status of a key; a key without an entry is enabled. -/
def keyStatus (i : Nat) : ChannelStatus := (info.multiKeyStatusList.lookup i).getD .enabled

/-- The entry of a key with this status: an enabled key has none. -/
def statusEntry (status : ChannelStatus) : Option ChannelStatus :=
  if status = .enabled then none else some status

/-- A new status for a key; the map stays what it is if it has the entry already. -/
def setKeyStatus (i : Nat) (status : ChannelStatus) : ChannelInfo :=
  let rest := info.multiKeyStatusList.filter (·.1 ≠ i)
  { info with multiKeyStatusList :=
      if info.multiKeyStatusList.lookup i = statusEntry status then info.multiKeyStatusList
      else if status = .enabled then rest else (i, status) :: rest }

theorem lookup_filter_ne {entries : List (Nat × ChannelStatus)} {i j : Nat} :
    (entries.filter (·.1 ≠ i)).lookup j = if j = i then none else entries.lookup j := by
  induction entries with
  | nil => simp
  | cons entry rest ih =>
    obtain ⟨k, status⟩ := entry
    by_cases hk : k = i
    · subst hk
      rw [filter_cons_of_neg (by simp), ih]
      split_ifs with hj
      · rfl
      · rw [lookup_cons, beq_false_of_ne hj]
    · rw [filter_cons_of_pos (by simpa using hk), lookup_cons, lookup_cons, ih]
      by_cases hj : j = k
      · simp [hj, hk]
      · rw [beq_false_of_ne hj]

theorem lookup_setKeyStatus (i j : Nat) (status : ChannelStatus) :
    (info.setKeyStatus i status).multiKeyStatusList.lookup j =
      if j = i then statusEntry status else info.multiKeyStatusList.lookup j := by
  unfold setKeyStatus
  dsimp only
  split_ifs with hsame hj hstatus hj hj
  · rw [hj, hsame]
  · rfl
  · rw [lookup_filter_ne, if_pos hj, hstatus]
    rfl
  · rw [lookup_filter_ne, if_neg hj]
  · rw [lookup_cons, hj, beq_self_eq_true, statusEntry, if_neg hstatus]
  · rw [lookup_cons, beq_false_of_ne hj, lookup_filter_ne, if_neg hj]

/-- The map is unchanged iff it has the entry already. -/
theorem setKeyStatus_eq_iff (i : Nat) (status : ChannelStatus) :
    (info.setKeyStatus i status).multiKeyStatusList = info.multiKeyStatusList ↔
      info.multiKeyStatusList.lookup i = statusEntry status := by
  refine ⟨fun h => ?_, fun h => if_pos h⟩
  rw [← h, lookup_setKeyStatus, if_pos rfl]

@[simp]
theorem keyStatus_setKeyStatus (i j : Nat) (status : ChannelStatus) :
    (info.setKeyStatus i status).keyStatus j = if j = i then status else info.keyStatus j := by
  rw [keyStatus, lookup_setKeyStatus]
  split_ifs
  · unfold statusEntry
    split_ifs with hstatus
    · exact hstatus.symm
    · rfl
  · rfl

end ChannelInfo

def hasEnabledMultiKey (keys : List String) (info : ChannelInfo) : Bool :=
  (List.range keys.length).any (info.keyStatus · = .enabled)

/-! ### Updates -/

/-- `ChannelStatusReasonAllKeysDisabled`. -/
def allKeysDisabled : String := "All keys are disabled"

/-- The arguments of `UpdateChannelStatus`. -/
structure StatusCall where
  channelId : Int
  usingKey : String := ""
  status : ChannelStatus
  reason : String := ""

variable (call : StatusCall) (channel : Channel)

def handlerMultiKeyUpdate : Channel :=
  let keys := channel.getKeys codec
  if keys = [] then { channel with status := call.status }
  else
    match keys.findIdx? (· = call.usingKey) with
    | none =>
      if call.usingKey ≠ "" then channel
      else { channel with status := call.status, statusReason := some call.reason }
    | some keyIndex =>
      let channel :=
        { channel with channelInfo := channel.channelInfo.setKeyStatus keyIndex call.status }
      if !hasEnabledMultiKey keys channel.channelInfo then
        { channel with status := .autoDisabled, statusReason := some allKeysDisabled }
      else if call.status = .enabled then { channel with status := .enabled }
      else channel

/-- The handler gives the key of the call its status, and leaves the other keys alone. -/
theorem handlerMultiKeyUpdate_keyStatus (i : Nat) :
    (handlerMultiKeyUpdate codec call channel).channelInfo.keyStatus i =
      if (channel.getKeys codec).findIdx? (· = call.usingKey) = some i then call.status
      else channel.channelInfo.keyStatus i := by
  unfold handlerMultiKeyUpdate
  by_cases hnil : channel.getKeys codec = []
  · rw [hnil]
    rfl
  rw [if_neg hnil]
  cases (channel.getKeys codec).findIdx? (· = call.usingKey) with
  | none => split_ifs <;> simp_all
  | some keyIndex =>
    have hset := channel.channelInfo.keyStatus_setKeyStatus keyIndex i call.status
    simp only [Option.some.injEq, eq_comm (a := keyIndex)]
    split_ifs at hset ⊢ <;> exact hset

/-- The handler changes the status of the channel, its reason and the status list, and nothing
    else. -/
theorem handlerMultiKeyUpdate_eq :
    ∃ status statusReason multiKeyStatusList, handlerMultiKeyUpdate codec call channel =
      { channel with
        status, statusReason
        channelInfo := { channel.channelInfo with multiKeyStatusList } } := by
  unfold handlerMultiKeyUpdate
  by_cases hnil : channel.getKeys codec = []
  · rw [if_pos hnil]
    exact ⟨_, _, _, rfl⟩
  rw [if_neg hnil]
  cases (channel.getKeys codec).findIdx? (· = call.usingKey) with
  | none => split_ifs <;> exact ⟨_, _, _, rfl⟩
  | some keyIndex =>
    dsimp only
    split_ifs <;> exact ⟨_, _, _, rfl⟩

/-- A manual operation replaces the reason of a channel whose keys are all disabled. -/
def overridesKeyExhaustion : Bool :=
  channel.channelInfo.isMultiKey && call.usingKey == "" && call.status == .manuallyDisabled &&
    call.reason != allKeysDisabled && channel.statusReason == some allKeysDisabled

/-- The second half of `UpdateChannelStatus`: the row it saves, if it saves one. -/
def savedRow : Option Channel :=
  if channel.status = call.status ∧ !overridesKeyExhaustion call channel then none
  else if channel.id = 0 then none
  else if channel.channelInfo.isMultiKey then some (handlerMultiKeyUpdate codec call channel)
  else some { channel with status := call.status, statusReason := some call.reason }

/-! ### The next key -/

/-- `GetNextEnabledKey` on a channel object: the place of the key, or nothing if no key is enabled.
    `random` decides in random mode; polling starts at the index that is stored. -/
def nextEnabledIdx (pollingIndex : Int) (random : Nat) : Option Nat :=
  let keys := channel.getKeys codec
  let enabledIdx := (List.range keys.length).filter (channel.channelInfo.keyStatus · = .enabled)
  match channel.channelInfo.multiKeyMode with
  | .random => enabledIdx[random % enabledIdx.length]?
  | .polling =>
    let start := if pollingIndex < 0 ∨ keys.length ≤ pollingIndex then 0 else pollingIndex.toNat
    ((List.range keys.length).map fun i => (start + i) % keys.length).find?
      (channel.channelInfo.keyStatus · = .enabled)
  | .other => enabledIdx.head?

/-- The object after the call: polling moves on. -/
def afterNextKey (next : Option Nat) : Channel :=
  match channel.channelInfo.multiKeyMode, next with
  | .polling, some idx =>
    { channel with channelInfo := { channel.channelInfo with
        multiKeyPollingIndex := ((idx + 1) % (channel.getKeys codec).length : Nat) } }
  | _, _ => channel

/-- A rebuilt object keeps the polling index of the old one, if both poll. -/
def keepPollingIndex (old : Option Channel) (channel : Channel) : Channel :=
  let polls (info : ChannelInfo) := info.isMultiKey && info.multiKeyMode == .polling
  match old with
  | some old =>
    if polls channel.channelInfo && polls old.channelInfo then
      { channel with channelInfo := { channel.channelInfo with
          multiKeyPollingIndex := old.channelInfo.multiKeyPollingIndex } }
    else channel
  | none => channel

theorem keepPollingIndex_eq (old : Option Channel) (channel : Channel) :
    ∃ multiKeyPollingIndex, keepPollingIndex old channel =
      { channel with channelInfo := { channel.channelInfo with multiKeyPollingIndex } } := by
  unfold keepPollingIndex
  dsimp only
  split
  · split_ifs <;> exact ⟨_, rfl⟩
  · exact ⟨_, rfl⟩

theorem nextEnabledIdx_enabled {channel : Channel} {pollingIndex : Int} {random idx : Nat}
    (h : nextEnabledIdx codec channel pollingIndex random = some idx) :
    channel.channelInfo.keyStatus idx = .enabled := by
  unfold nextEnabledIdx at h
  split at h
  · have hmem := mem_filter.mp (mem_of_getElem? h)
    simpa using hmem.2
  · simpa using find?_some h
  · have hmem := mem_filter.mp (mem_of_mem_head? h)
    simpa using hmem.2

theorem afterNextKey_eq (next : Option Nat) :
    ∃ multiKeyPollingIndex, afterNextKey codec channel next =
      { channel with channelInfo := { channel.channelInfo with multiKeyPollingIndex } } := by
  unfold afterNextKey
  split <;> exact ⟨_, rfl⟩

end TokenGateway.Channels
