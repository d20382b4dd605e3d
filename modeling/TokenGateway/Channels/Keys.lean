import TokenGateway.Base.Transaction
import TokenGateway.Channels.Status

namespace TokenGateway.Channels

open Base List Option

/-!
# Disabling keys of a channel

`GetNextEnabledKey` and `UpdateChannelStatus` of `model/channel.go` on one channel with several
keys, with and without the memory cache.  Both hold the lock of the channel, so each call is one
step; an object may have been loaded long before it is used.

* `KeyStore`, `KeyStep`, `keyStep` — the row, the objects, and the calls;
* `UpToDate` — no call writes or publishes a status list that is older than the row;
* `disabled_key_stays_disabled` — what follows for every run.
-/

/-! ### State -/

/-- A request holds an object; `since` are the keys that were disabled when it was loaded, and have
    not been enabled since. -/
structure Reference where
  pointer : Nat
  since : List String
  deriving DecidableEq

structure KeyStore where
  row : Channel
  /-- The channel objects that have been made. -/
  heap : List Channel := []
  /-- The object in the cache. -/
  cached : Option Nat := none
  refs : List Reference := []
  /-- The keys that a call has disabled in the database, and no call has enabled since. -/
  down : List String := []

variable (codec : KeyCodec) (memoryCache : Bool)

namespace KeyStore

variable (s : KeyStore)

/-- The polling index that `CacheGetChannelInfo` gives. -/
def pollingIndex : Option Int :=
  if memoryCache then (s.cached.bind fun pointer => s.heap[pointer]?).map
    (·.channelInfo.multiKeyPollingIndex)
  else some s.row.channelInfo.multiKeyPollingIndex

/-- `GetNextEnabledKey` on an object. -/
def nextKeyIdx (object : Channel) (random : Nat) : Option Nat :=
  if object.channelInfo.multiKeyMode = .polling then
    (s.pollingIndex memoryCache).bind fun index => nextEnabledIdx codec object index random
  else nextEnabledIdx codec object 0 random

/-- The key text that a request with a reference gets. -/
def nextKey (ref : Reference) (random : Nat) : Option String :=
  s.heap[ref.pointer]?.bind fun object =>
    (s.nextKeyIdx codec memoryCache object random).bind fun idx => (object.getKeys codec)[idx]?

/-- The object and the row after `GetNextEnabledKey`: without the cache, polling saves the
    `ChannelInfo` of the object. -/
def afterNext (pointer : Nat) (object : Channel) (random : Nat) : KeyStore :=
  let idx := s.nextKeyIdx codec memoryCache object random
  let object := afterNextKey codec object idx
  { s with
    heap := s.heap.set pointer object
    row := if !memoryCache ∧ object.channelInfo.multiKeyMode = .polling ∧ idx.isSome then
        { s.row with channelInfo := object.channelInfo }
      else s.row }

/-- The first half of `UpdateChannelStatus`, on the cached object; nothing is a return. -/
def updateCached (call : StatusCall) : Option KeyStore :=
  if memoryCache then
    s.cached.bind fun pointer => s.heap[pointer]?.map fun object =>
      { s with heap := s.heap.set pointer (handlerMultiKeyUpdate codec call object) }
  else some s

/-- A key that has been enabled is no longer expected to be disabled. -/
def release (key : String) : KeyStore :=
  { s with
    down := s.down.filter (· ≠ key)
    refs := s.refs.map fun ref => { ref with since := ref.since.filter (· ≠ key) } }

def updateRow (call : StatusCall) : KeyStore :=
  match savedRow codec call s.row with
  | none => s
  | some row =>
    { s with
      row
      down := if call.status ≠ .enabled ∧ call.usingKey ∈ s.row.getKeys codec then
        call.usingKey :: s.down
        else s.down }

end KeyStore

inductive KeyStep where
  /-- The row is read into a new object, for a rebuild of the cache. -/
  | fetch
  /-- The rebuild publishes its object. -/
  | publish (pointer : Nat)
  /-- A request loads the channel. -/
  | load
  | update (call : StatusCall)
  /-- The request with a reference takes its next key. -/
  | nextKey (place : Nat) (random : Nat)

def keyStep (s : KeyStore) : KeyStep → KeyStore
  | .fetch => { s with heap := s.heap ++ [s.row] }
  | .publish pointer =>
    if memoryCache ∧ pointer < s.heap.length then
      { s with
        heap := s.heap.modify pointer (keepPollingIndex (s.cached.bind fun old => s.heap[old]?))
        cached := some pointer }
    else s
  | .load =>
    if memoryCache then
      match s.cached with
      | none => s
      | some pointer => { s with refs := s.refs ++ [⟨pointer, s.down⟩] }
    else { s with heap := s.heap ++ [s.row], refs := s.refs ++ [⟨s.heap.length, s.down⟩] }
  | .update call =>
    -- an enabling call lifts the expectation, whatever it does
    let s := if call.status = .enabled then s.release call.usingKey else s
    match s.updateCached codec memoryCache call with
    | none => s
    | some s => s.updateRow codec call
  | .nextKey place random =>
    match s.refs[place]? with
    | none => s
    | some ref =>
      match s.heap[ref.pointer]? with
      | none => s
      | some object => s.afterNext codec memoryCache ref.pointer object random

/-- What is published, and what polling saves without the cache, has the status list of the row. -/
def UpToDate (s : KeyStore) : KeyStep → Prop
  | .publish pointer => ∀ object ∈ s.heap[pointer]?,
    object.channelInfo.multiKeyStatusList = s.row.channelInfo.multiKeyStatusList
  | .nextKey place _ => memoryCache = false → ∀ ref ∈ s.refs[place]?,
    ∀ object ∈ s.heap[ref.pointer]?, object.channelInfo.multiKeyMode = .polling →
      object.channelInfo.multiKeyStatusList = s.row.channelInfo.multiKeyStatusList
  | .fetch | .load | .update _ => True

/-! ### Invariant -/

/-- A key of an object is disabled. -/
def KeyDisabled (channel : Channel) (key : String) : Prop :=
  ∀ i, (channel.getKeys codec).findIdx? (· = key) = some i →
    channel.channelInfo.keyStatus i ≠ .enabled

/-- Two versions of a channel have the same keys; the status lists may differ. -/
def SameKeys (a b : Channel) : Prop :=
  a.key = b.key ∧ a.channelInfo.isMultiKey = b.channelInfo.isMultiKey

/-- Every object knows the keys that were disabled when it was loaded. -/
structure KeyInvariant (s : KeyStore) : Prop where
  multi : s.row.channelInfo.isMultiKey = true
  distinct : (s.row.getKeys codec).Nodup
  same : ∀ object ∈ s.heap, SameKeys object s.row
  stored : ∀ key ∈ s.down, KeyDisabled codec s.row key
  uncached : memoryCache = false → s.cached = none
  cached : ∀ pointer ∈ s.cached, ∃ object, s.heap[pointer]? = some object ∧
    ∀ key ∈ s.down, KeyDisabled codec object key
  held : ∀ ref ∈ s.refs, ∃ object, s.heap[ref.pointer]? = some object ∧
    ∀ key ∈ ref.since, KeyDisabled codec object key

variable {a b : Channel} {key : String} {random : Nat}

section Steps

variable {codec} {memoryCache} {s : KeyStore} {call : StatusCall}

theorem SameKeys.getKeys (h : SameKeys a b) : a.getKeys codec = b.getKeys codec := by
  rw [Channel.getKeys, Channel.getKeys, h.1]

theorem handler_sameKeys (codec : KeyCodec) (call : StatusCall) (channel : Channel) :
    SameKeys (handlerMultiKeyUpdate codec call channel) channel := by
  obtain ⟨_, _, _, heq⟩ := handlerMultiKeyUpdate_eq codec call channel
  rw [heq]
  exact ⟨rfl, rfl⟩

theorem getElem?_of_findIdx? {keys : List String} {i : Nat}
    (h : keys.findIdx? (· = key) = some i) : keys[i]? = some key := by
  obtain ⟨hlt, heq, -⟩ := findIdx?_eq_some_iff_getElem.mp h
  rw [getElem?_eq_getElem hlt, of_decide_eq_true heq]

theorem KeyDisabled.of_list (h : KeyDisabled codec a key) (hkey : b.key = a.key)
    (hlist : b.channelInfo.multiKeyStatusList = a.channelInfo.multiKeyStatusList) :
    KeyDisabled codec b key := by
  intro i hi
  rw [Channel.getKeys, hkey] at hi
  rw [ChannelInfo.keyStatus, hlist]
  exact h i hi

/-- The handler keeps a key disabled, unless the call enables that key. -/
theorem KeyDisabled.handler {channel : Channel} (h : KeyDisabled codec channel key)
    (hkey : call.status = .enabled → key ≠ call.usingKey) :
    KeyDisabled codec (handlerMultiKeyUpdate codec call channel) key := by
  intro i hi
  rw [(handler_sameKeys codec call channel).getKeys] at hi
  rw [handlerMultiKeyUpdate_keyStatus]
  split_ifs with hfound
  · intro henabled
    have hboth := (getElem?_of_findIdx? hi).symm.trans (getElem?_of_findIdx? hfound)
    exact hkey henabled (Option.some.inj hboth)
  · exact h i hi

theorem KeyDisabled.of_handler (channel : Channel) (hstatus : call.status ≠ .enabled) :
    KeyDisabled codec (handlerMultiKeyUpdate codec call channel) call.usingKey := by
  intro i hi
  rw [(handler_sameKeys codec call channel).getKeys] at hi
  rw [handlerMultiKeyUpdate_keyStatus, if_pos hi]
  exact hstatus

section

variable (h : KeyInvariant codec memoryCache s)
include h

/-- Objects may change as long as they keep the keys disabled that somebody counts on. -/
theorem KeyInvariant.heap {heap : List Channel} (counted : String → Prop)
    (hdown : ∀ key ∈ s.down, counted key)
    (hrefs : ∀ ref ∈ s.refs, ∀ key ∈ ref.since, counted key)
    (hsame : ∀ object ∈ heap, SameKeys object s.row)
    (hobjects : ∀ (p : Nat) (old : Channel), s.heap[p]? = some old → ∃ object,
      heap[p]? = some object ∧
      ∀ key, counted key → KeyDisabled codec old key → KeyDisabled codec object key) :
    KeyInvariant codec memoryCache { s with heap } where
  multi := h.multi
  distinct := h.distinct
  same := hsame
  stored := h.stored
  uncached := h.uncached
  cached pointer hpointer := by
    obtain ⟨old, hold, hkeys⟩ := h.cached pointer hpointer
    obtain ⟨object, hobject, hkept⟩ := hobjects pointer old hold
    exact ⟨object, hobject, fun key hkey => hkept key (hdown key hkey) (hkeys key hkey)⟩
  held ref href := by
    obtain ⟨old, hold, hkeys⟩ := h.held ref href
    obtain ⟨object, hobject, hkept⟩ := hobjects ref.pointer old hold
    exact ⟨object, hobject, fun key hkey => hkept key (hrefs ref href key hkey) (hkeys key hkey)⟩

/-- The case in which only polling indexes change, and objects are added. -/
theorem KeyInvariant.objects (heap : List Channel) (hsame : ∀ object ∈ heap, SameKeys object s.row)
    (hobjects : ∀ (p : Nat) (old : Channel), s.heap[p]? = some old → ∃ index, heap[p]? = some
      { old with channelInfo := { old.channelInfo with multiKeyPollingIndex := index } }) :
    KeyInvariant codec memoryCache { s with heap } :=
  h.heap (fun _ => True) (fun _ _ => trivial) (fun _ _ _ _ => trivial) hsame fun p old hold => by
    obtain ⟨index, hindex⟩ := hobjects p old hold
    exact ⟨_, hindex, fun key _ hkey => hkey⟩

theorem KeyInvariant.append :
    KeyInvariant codec memoryCache { s with heap := s.heap ++ [s.row] } := by
  refine h.objects _ (forall_mem_append.mpr ⟨h.same, forall_mem_singleton.mpr ⟨rfl, rfl⟩⟩)
    fun p old hold => ⟨old.channelInfo.multiKeyPollingIndex, ?_⟩
  rw [List.getElem?_append_left (List.getElem?_eq_some_iff.mp hold).1, hold]

theorem KeyInvariant.publish {pointer : Nat} (hfresh : ∀ object ∈ s.heap[pointer]?,
      object.channelInfo.multiKeyStatusList = s.row.channelInfo.multiKeyStatusList) :
    KeyInvariant codec memoryCache (keyStep codec memoryCache s (.publish pointer)) := by
  rw [keyStep]
  split_ifs with hcan
  · set old := s.cached.bind fun old => s.heap[old]?
    have hmodify (p : Nat) : (s.heap.modify pointer (keepPollingIndex old))[p]? =
        s.heap[p]?.map fun channel => if pointer = p then keepPollingIndex old channel
          else channel :=
      getElem?_modify ..
    have hpolls (channel : Channel) (p : Nat) : ∃ index,
        (if pointer = p then keepPollingIndex old channel else channel) =
          { channel with
            channelInfo := { channel.channelInfo with multiKeyPollingIndex := index } } := by
      split_ifs
      · exact keepPollingIndex_eq old channel
      · exact ⟨channel.channelInfo.multiKeyPollingIndex, rfl⟩
    have hobjects := h.objects (s.heap.modify pointer (keepPollingIndex old))
      (fun object hobject => by
        obtain ⟨p, hp⟩ := mem_iff_getElem?.mp hobject
        rw [hmodify] at hp
        obtain ⟨channel, hchannel, rfl⟩ := map_eq_some_iff.mp hp
        obtain ⟨index, heq⟩ := hpolls channel p
        rw [heq]
        exact h.same channel (mem_of_getElem? hchannel)) fun p channel hchannel => by
      obtain ⟨index, heq⟩ := hpolls channel p
      exact ⟨index, by rw [hmodify, hchannel, map_some, heq]⟩
    refine { hobjects with uncached := fun hno => ?_, cached := fun p hp => ?_ }
    · rw [hno] at hcan
      cases hcan.1
    cases hp
    obtain ⟨channel, hchannel⟩ : ∃ channel, s.heap[pointer]? = some channel :=
      ⟨_, getElem?_eq_getElem hcan.2⟩
    obtain ⟨index, heq⟩ := hpolls channel pointer
    refine ⟨_, by rw [hmodify, hchannel, map_some, heq], fun key hkey => ?_⟩
    have hsame := h.same channel (mem_of_getElem? hchannel)
    exact (h.stored key hkey).of_list hsame.1 (hfresh channel hchannel)
  · exact h

theorem KeyInvariant.load : KeyInvariant codec memoryCache (keyStep codec memoryCache s .load) := by
  rw [keyStep]
  split_ifs
  · split
    · exact h
    · next pointer hpointer =>
      exact { h with
        held := forall_mem_append.mpr
          ⟨h.held, forall_mem_singleton.mpr (h.cached pointer hpointer)⟩ }
  · exact { h.append with
      held := forall_mem_append.mpr ⟨h.append.held,
        forall_mem_singleton.mpr ⟨s.row, by simp, h.stored⟩⟩ }

theorem KeyInvariant.release (key : String) : KeyInvariant codec memoryCache (s.release key) where
  multi := h.multi
  distinct := h.distinct
  same := h.same
  stored other hother := h.stored other (mem_of_mem_filter hother)
  uncached := h.uncached
  cached pointer hpointer := by
    obtain ⟨object, hobject, hkeys⟩ := h.cached pointer hpointer
    exact ⟨object, hobject, fun other hother => hkeys other (mem_of_mem_filter hother)⟩
  held ref href := by
    obtain ⟨old, hold, rfl⟩ := mem_map.mp href
    obtain ⟨object, hobject, hkeys⟩ := h.held old hold
    exact ⟨object, hobject, fun other hother => hkeys other (mem_of_mem_filter hother)⟩

end

/-- Nobody counts on the key that a call enables. -/
structure Released (s : KeyStore) (call : StatusCall) : Prop where
  down : ∀ key ∈ s.down, call.status = .enabled → key ≠ call.usingKey
  refs : ∀ ref ∈ s.refs, ∀ key ∈ ref.since, call.status = .enabled → key ≠ call.usingKey

theorem released (s : KeyStore) (call : StatusCall) :
    Released (if call.status = .enabled then s.release call.usingKey else s) call := by
  split_ifs with henabled
  · constructor
    · intro key hkey _
      exact of_decide_eq_true (mem_filter.mp hkey).2
    · intro ref href key hkey _
      obtain ⟨old, -, rfl⟩ := mem_map.mp href
      exact of_decide_eq_true (mem_filter.mp hkey).2
  · exact ⟨fun _ _ h => absurd h henabled, fun _ _ _ _ h => absurd h henabled⟩

section

variable (h : KeyInvariant codec memoryCache s)
include h

theorem KeyInvariant.updateCached (hreleased : Released s call) {s' : KeyStore}
    (hcached : s.updateCached codec memoryCache call = some s') :
    KeyInvariant codec memoryCache s' ∧ Released s' call ∧
      (call.status ≠ .enabled → ∀ pointer ∈ s'.cached, ∃ object, s'.heap[pointer]? = some object ∧
        KeyDisabled codec object call.usingKey) := by
  unfold KeyStore.updateCached at hcached
  split_ifs at hcached with hcache
  · obtain ⟨pointer, hpointer, hcached⟩ := bind_eq_some_iff.mp hcached
    obtain ⟨object, hobject, rfl⟩ := map_eq_some_iff.mp hcached
    have hlt := (List.getElem?_eq_some_iff.mp hobject).1
    refine ⟨h.heap _ hreleased.down hreleased.refs (fun changed hchanged => ?_) fun p old hold =>
      ?_, ⟨hreleased.down, hreleased.refs⟩, fun hstatus p hp => ?_⟩
    · rcases mem_or_eq_of_mem_set hchanged with hmem | rfl
      · exact h.same changed hmem
      · have hsame := handler_sameKeys codec call object
        have hrow := h.same object (mem_of_getElem? hobject)
        exact ⟨hsame.1.trans hrow.1, hsame.2.trans hrow.2⟩
    · by_cases hp : pointer = p
      · subst hp
        rw [hobject] at hold
        cases hold
        exact ⟨_, getElem?_set_self hlt, fun key hkey hdisabled => hdisabled.handler hkey⟩
      · exact ⟨old, by rw [getElem?_set_ne hp, hold], fun _ _ hdisabled => hdisabled⟩
    · rw [hpointer] at hp
      cases hp
      exact ⟨_, getElem?_set_self hlt, .of_handler object hstatus⟩
  · cases hcached
    refine ⟨h, hreleased, fun _ pointer hpointer => ?_⟩
    rw [h.uncached (by simpa using hcache)] at hpointer
    cases hpointer

theorem KeyInvariant.updateRow (hreleased : Released s call)
    (hcached : call.status ≠ .enabled → ∀ pointer ∈ s.cached, ∃ object,
      s.heap[pointer]? = some object ∧ KeyDisabled codec object call.usingKey) :
    KeyInvariant codec memoryCache (s.updateRow codec call) := by
  unfold KeyStore.updateRow
  cases hrow : savedRow codec call s.row with
  | none => exact h
  | some row =>
    obtain rfl : row = handlerMultiKeyUpdate codec call s.row := by
      unfold savedRow at hrow
      rw [h.multi] at hrow
      split_ifs at hrow with _ _ hmulti
      · exact (Option.some.inj hrow).symm
      · exact absurd rfl hmulti
    have hsame := handler_sameKeys codec call s.row
    have hdown : ∀ key ∈ (if call.status ≠ .enabled ∧ call.usingKey ∈ s.row.getKeys codec then
        call.usingKey :: s.down else s.down), key ∈ s.down ∨
          (call.status ≠ .enabled ∧ key = call.usingKey) := by
      intro key hkey
      split_ifs at hkey with hdisabled
      · rcases mem_cons.mp hkey with rfl | hkey
        · exact .inr ⟨hdisabled.1, rfl⟩
        · exact .inl hkey
      · exact .inl hkey
    exact
      { multi := hsame.2.trans h.multi
        distinct := hsame.getKeys.symm ▸ h.distinct
        same := fun object hobject =>
          ⟨(h.same object hobject).1.trans hsame.1.symm,
            (h.same object hobject).2.trans hsame.2.symm⟩
        stored := fun key hkey => by
          rcases hdown key hkey with hkey | ⟨hstatus, rfl⟩
          · exact (h.stored key hkey).handler (hreleased.down key hkey)
          · exact .of_handler s.row hstatus
        uncached := h.uncached
        cached := fun pointer hpointer => by
          obtain ⟨object, hobject, hkeys⟩ := h.cached pointer hpointer
          refine ⟨object, hobject, fun key hkey => ?_⟩
          rcases hdown key hkey with hkey | ⟨hstatus, rfl⟩
          · exact hkeys key hkey
          obtain ⟨other, hother, hdisabled⟩ := hcached hstatus pointer hpointer
          rw [show s.heap[pointer]? = some object from hobject] at hother
          cases hother
          exact hdisabled
        held := h.held }

theorem KeyInvariant.update :
    KeyInvariant codec memoryCache (keyStep codec memoryCache s (.update call)) := by
  rw [keyStep]
  have hreleased := released s call
  have hinv : KeyInvariant codec memoryCache (if call.status =
    .enabled then s.release call.usingKey else s) := by
    split_ifs
    · exact h.release _
    · exact h
  generalize (if call.status = .enabled then s.release call.usingKey else s) = before at *
  cases hcached : before.updateCached codec memoryCache call with
  | none => exact hinv
  | some after =>
    obtain ⟨hafter, hstill, hdisabled⟩ := hinv.updateCached hreleased hcached
    exact hafter.updateRow hstill hdisabled

/-- A call of `GetNextEnabledKey` moves a polling index, and may save the `ChannelInfo` of the
    object. -/
theorem KeyInvariant.nextKey {place : Nat} (hfresh : UpToDate memoryCache s
      (.nextKey place random)) :
    KeyInvariant codec memoryCache (keyStep codec memoryCache s (.nextKey place random)) := by
  rw [keyStep]
  cases href : s.refs[place]? with
  | none => exact h
  | some ref =>
    dsimp only
    cases hobject : s.heap[ref.pointer]? with
    | none => exact h
    | some object =>
      dsimp only [KeyStore.afterNext]
      obtain ⟨index, heq⟩ := afterNextKey_eq codec object
        (s.nextKeyIdx codec memoryCache object random)
      rw [heq]
      have hlt := (List.getElem?_eq_some_iff.mp hobject).1
      have hsame := h.same object (mem_of_getElem? hobject)
      have hheap := h.objects (s.heap.set ref.pointer { object with channelInfo :=
          { object.channelInfo with multiKeyPollingIndex := index } }) (fun changed hchanged => by
          rcases mem_or_eq_of_mem_set hchanged with hmem | rfl
          · exact h.same changed hmem
          · exact hsame) fun p old hold => by
        by_cases hp : ref.pointer = p
        · subst hp
          rw [hobject] at hold
          cases hold
          exact ⟨index, getElem?_set_self hlt⟩
        · exact ⟨old.channelInfo.multiKeyPollingIndex, by rw [getElem?_set_ne hp, hold]⟩
      split_ifs with hsave
      · have hlist := hfresh (by simpa using hsave.1) ref href object hobject hsave.2.1
        exact
          { multi := hsame.2.trans h.multi
            distinct := h.distinct
            same := fun other hother => ⟨(hheap.same other hother).1,
              (hheap.same other hother).2.trans hsame.2.symm⟩
            stored := fun key hkey => (h.stored key hkey).of_list rfl hlist
            uncached := h.uncached
            cached := hheap.cached
            held := hheap.held }
      · exact hheap

theorem KeyInvariant.step {e : KeyStep} (hfresh : UpToDate memoryCache s e) :
    KeyInvariant codec memoryCache (keyStep codec memoryCache s e) := by
  cases e with
  | fetch => exact h.append
  | publish pointer => exact h.publish hfresh
  | load => exact h.load
  | update call => exact h.update
  | nextKey place random => exact h.nextKey hfresh

/-- A key that is returned is none of those that were disabled when the object was loaded. -/
theorem KeyInvariant.nextKey_not_since {ref : Reference} (href : ref ∈ s.refs)
    (hnext : s.nextKey codec memoryCache ref random = some key) : key ∉ ref.since := by
  intro hsince
  obtain ⟨object, hobject, hdisabled⟩ := h.held ref href
  obtain ⟨found, hfound, hnext⟩ := bind_eq_some_iff.mp hnext
  rw [hobject] at hfound
  cases hfound
  obtain ⟨idx, hidx, hkey⟩ := bind_eq_some_iff.mp hnext
  have henabled : object.channelInfo.keyStatus idx = .enabled := by
    unfold KeyStore.nextKeyIdx at hidx
    split_ifs at hidx
    · obtain ⟨start, -, hidx⟩ := bind_eq_some_iff.mp hidx
      exact nextEnabledIdx_enabled codec hidx
    · exact nextEnabledIdx_enabled codec hidx
  -- the key stands at one place only
  have hplace : (object.getKeys codec).findIdx? (· = key) = some idx := by
    rw [(h.same object (mem_of_getElem? hobject)).getKeys] at hkey ⊢
    obtain ⟨hlt, hget⟩ := List.getElem?_eq_some_iff.mp hkey
    refine findIdx?_eq_some_iff_getElem.mpr ⟨hlt, by simpa using hget, fun j hj => ?_⟩
    simp only [decide_eq_true_eq]
    intro heq
    exact hj.ne (h.distinct.getElem_inj_iff.mp (heq.trans hget.symm))
  exact hdisabled key hsince idx hplace henabled

end

end Steps

/-! ### Runs -/

/-- **A disabled key stays disabled.**  In every run in which no call saves or publishes a status
    list that is older than the row, and from any row with distinct keys, a key that a call has
    disabled in the database is disabled there until a call enables it, and no request that loaded
    the channel afterwards gets it. -/
theorem disabled_key_stays_disabled {row : Channel} (hmulti : row.channelInfo.isMultiKey = true)
    (hkeys : (row.getKeys codec).Nodup) {steps : List KeyStep}
    (hrun : Along (keyStep codec memoryCache) (UpToDate memoryCache) { row } steps) :
    (∀ key ∈ (run (keyStep codec memoryCache) { row } steps).down,
      KeyDisabled codec (run (keyStep codec memoryCache) { row } steps).row key) ∧
    ∀ ref ∈ (run (keyStep codec memoryCache) { row } steps).refs, ∀ random key,
      (run (keyStep codec memoryCache) { row } steps).nextKey codec memoryCache ref random =
        some key → key ∉ ref.since := by
  have hstart : KeyInvariant codec memoryCache { row } :=
    { multi := hmulti
      distinct := hkeys
      same := fun _ hmem => absurd hmem not_mem_nil
      stored := fun _ hmem => absurd hmem not_mem_nil
      uncached := fun _ => rfl
      cached := fun _ hmem => absurd hmem (by simp)
      held := fun _ hmem => absurd hmem not_mem_nil }
  have hinv : KeyInvariant codec memoryCache (run (keyStep codec memoryCache) { row } steps) :=
    invariant_along (fun _ _ hs hstep => hs.step hstep) _ _ hstart hrun
  exact ⟨hinv.stored, fun ref href random key hnext => hinv.nextKey_not_since href hnext⟩

instance (s : KeyStore) (e : KeyStep) : Decidable (UpToDate memoryCache s e) := by
  cases e <;> unfold UpToDate <;> infer_instance

/-- A polling channel with two keys. -/
def pollingChannel (key : String) : Channel :=
  { id := 1, key, channelInfo := { isMultiKey := true, multiKeyMode := .polling } }

def keyLines : KeyCodec := ⟨fun _ => none⟩

/-- A request, a key that is disabled, and another request. -/
def disableBetween : List KeyStep :=
  [.load, .nextKey 0 0, .update ⟨1, "x", .autoDisabled, ""⟩, .load, .nextKey 1 0]

theorem disableBetween_keeps_disabled :
    (run (keyStep keyLines false) { row := pollingChannel "x\ny" } disableBetween).down = ["x"] ∧
    KeyDisabled keyLines (run (keyStep keyLines false)
      { row := pollingChannel "x\ny" } disableBetween).row "x" :=
  ⟨by decide, (disabled_key_stays_disabled keyLines false rfl (by decide) (by decide)).1 "x"
    (by decide)⟩

/-- The status of the key `x` in the row, and the key that the last request gets. -/
def keyOutcome (memoryCache : Bool) (key : String) (steps : List KeyStep) :
    List String × ChannelStatus × Option String :=
  let s := run (keyStep keyLines memoryCache) { row := pollingChannel key } steps
  ((s.refs.getLast?.map Reference.since).getD [], s.row.channelInfo.keyStatus 0,
    s.refs.getLast?.bind fun ref => s.nextKey keyLines memoryCache ref 0)

/-- A disabled key comes back: a request that was loaded before saves its old status list; the text
    of the key stands at another place too; a rebuild publishes an object that was read before. -/
theorem disabled_key_is_returned :
    keyOutcome false "x\ny" [.load, .update ⟨1, "x", .autoDisabled, ""⟩, .nextKey 0 0, .load,
      .nextKey 1 0, .load] = (["x"], .enabled, some "x") ∧
    keyOutcome false "x\nx" [.update ⟨1, "x", .autoDisabled, ""⟩, .load] =
      (["x"], .autoDisabled, some "x") ∧
    keyOutcome true "x\ny" [.fetch, .publish 0, .fetch, .update ⟨1, "x", .autoDisabled, ""⟩,
      .publish 1, .load] = (["x"], .autoDisabled, some "x") := by
  decide

end TokenGateway.Channels
