import TokenGateway.Base.Transaction
import TokenGateway.Channels.Modes
import TokenGateway.Channels.Status

namespace TokenGateway.Channels

open Base List

/-!
# Disabling channels while the cache is rebuilt

`model/channel_cache.go` and `UpdateChannelStatus` of `model/channel.go` with the memory cache.  A
rebuild reads the database and publishes later; a status update edits the cache first and saves its
row then.  The calls of `UpdateChannelStatus` exclude each other (`channelStatusLock`); all other
steps may come in between.

* `Gateway` — the database, the cache with its objects, and the calls that are under way;
* `Step`, `step` — the steps of the calls;
* `Undisturbed` — no rebuild overlaps a status update, and an update finds the cache as the database
  is;
* `disabled_channel_gets_no_requests` — what follows for every run.
-/

/-! ### State -/

/-- Where a call of `UpdateChannelStatus` stands. -/
inductive UpdatePhase where
  /-- The object of the channel has been found in the cache. -/
  | found (pointer : Nat)
  /-- `handlerMultiKeyUpdate` has changed the object, which had the status `before`. -/
  | handled (pointer : Nat) (before : ChannelStatus)
  /-- `CacheUpdateChannelStatus` is called next. -/
  | decided (status : ChannelStatus)
  /-- The cache has been updated; the row comes next. -/
  | cached
  deriving DecidableEq

structure Gateway where
  db : Database
  /-- The channel objects that have been made. -/
  heap : List Channel := []
  /-- `channelsIDM`, as pointers into the heap. -/
  channelsIDM : Int → Option Nat := fun _ => none
  /-- `group2model2channels`. -/
  index : Index := fun _ => none
  /-- What the rebuilds that are under way have read. -/
  rebuilds : List Database := []
  update : Option (StatusCall × UpdatePhase) := none
  /-- The channels that a call has disabled, and no call has enabled since. -/
  down : List Int := []

namespace Gateway

variable (s : Gateway)

/-- The cached object of a channel. -/
def cachedObject (id : Int) :
    Option Channel := (s.channelsIDM id).bind fun pointer => s.heap[pointer]?

/-! ### Steps -/

/-- `CacheUpdateChannelStatus`: an entry is removed once per list. -/
def cacheUpdateChannelStatus (id : Int) (status : ChannelStatus) : Gateway :=
  { s with
    heap := match s.channelsIDM id with
      | some pointer => s.heap.modify pointer fun channel => { channel with status }
      | none => s.heap
    index := if status = .enabled then s.index
      else fun group => (s.index group).map fun models model => (models model).erase id }

/-- `CacheUpdateChannel` with a new object. -/
def cacheUpdateChannel (channel : Channel) : Gateway :=
  { s with
    heap := s.heap ++ [channel]
    channelsIDM := Function.update s.channelsIDM channel.id (some s.heap.length) }

/-- The publication of a rebuild; one that fails at run time publishes nothing. -/
def publish (sorter : SortSlice) (read : Database) : Gateway :=
  match initIndex sorter read with
  | none => s
  | some index =>
    { s with
      index
      heap := s.heap ++ read.channels.rows.map fun channel =>
        keepPollingIndex (s.cachedObject channel.id) channel
      channelsIDM := fun id => (read.channels.rows.findIdx? (·.id = id)).map (s.heap.length + ·) }

/-- The save of `UpdateChannelStatus`, with the abilities of the channel. -/
def saveRow (call : StatusCall) (old row : Channel) : Gateway :=
  { s with
    db :=
      { channels := s.db.channels.set row
        abilities :=
          if !row.channelInfo.isMultiKey ∨ old.status ≠ row.status then
            s.db.abilities.map fun ability =>
              if ability.channelId = call.channelId
                then { ability with enabled := call.status = .enabled }
              else ability
          else s.db.abilities }
    update := none
    down := if row.status = .enabled then s.down.filter (· ≠ call.channelId)
      else call.channelId :: s.down }

/-- The next step of the call that is under way. -/
def updateNext (codec : KeyCodec) : Gateway :=
  match s.update with
  | none => s
  | some (call, .found pointer) =>
    match s.heap[pointer]? with
    | none => { s with update := none }
    | some object =>
      if object.channelInfo.isMultiKey then
        { s with
          heap := s.heap.set pointer (handlerMultiKeyUpdate codec call object)
          update := some (call, .handled pointer object.status) }
      else if object.status = call.status then { s with update := none }
      else { s with update := some (call, .decided call.status) }
  | some (call, .handled pointer before) =>
    match s.heap[pointer]? with
    | none => { s with update := none }
    | some object =>
      if before ≠ object.status then { s with update := some (call, .decided object.status) }
      else { s with update := some (call, .cached) }
  | some (call, .decided status) =>
    { s.cacheUpdateChannelStatus call.channelId status with update := some (call, .cached) }
  | some (call, .cached) =>
    match s.db.channels.get? call.channelId with
    | none => { s with update := none }
    | some old =>
      match savedRow codec call old with
      | none => { s with update := none }
      | some row => s.saveRow call old row

end Gateway

inductive Step where
  /-- A call of `UpdateChannelStatus` takes the lock, if it is free, and looks the channel up. -/
  | updateStart (call : StatusCall)
  | updateNext
  | cacheUpdateChannelStatus (id : Int) (status : ChannelStatus)
  | cacheUpdateChannel (channel : Channel)
  /-- `InitChannelCache` reads the database. -/
  | initRead
  /-- The rebuild at a place publishes. -/
  | initPublish (place : Nat)

variable (codec : KeyCodec) (sorter : SortSlice) (s : Gateway)

def step : Step → Gateway
  | .updateStart call =>
    if s.update.isSome then s
    else
      match s.channelsIDM call.channelId with
      | none => s
      | some pointer => { s with update := some (call, .found pointer) }
  | .updateNext => s.updateNext codec
  | .cacheUpdateChannelStatus id status => s.cacheUpdateChannelStatus id status
  | .cacheUpdateChannel channel => s.cacheUpdateChannel channel
  | .initRead => { s with rebuilds := s.rebuilds ++ [s.db] }
  | .initPublish place =>
    match s.rebuilds[place]? with
    | none => s
    | some read => { s.publish sorter read with rebuilds := s.rebuilds.eraseIdx place }

/-! ### Runs without overlap -/

/-- Two versions of a channel agree on what a status update reads. -/
def Agrees (a b : Channel) : Prop :=
  a.status = b.status ∧ a.key = b.key ∧ a.channelInfo.isMultiKey = b.channelInfo.isMultiKey ∧
    a.channelInfo.multiKeyStatusList = b.channelInfo.multiKeyStatusList

instance (a b : Channel) : Decidable (Agrees a b) := inferInstanceAs (Decidable (_ ∧ _ ∧ _ ∧ _))

/-- The cached object of a channel agrees with its row. -/
def CacheAgrees (id : Int) : Prop :=
  ∀ object ∈ s.cachedObject id, ∀ row ∈ s.db.channels.get? id, Agrees object row

instance (s : Gateway) (id : Int) : Decidable (CacheAgrees s id) := by
  unfold CacheAgrees
  infer_instance

/-- No rebuild and no other cache update overlaps a status update, and a status update finds the
    cache as the database is. -/
def Undisturbed : Step → Prop
  | .updateStart call => s.rebuilds = [] ∧ CacheAgrees s call.channelId
  | .updateNext => True
  | .cacheUpdateChannelStatus _ _ | .cacheUpdateChannel _ | .initRead | .initPublish _ =>
    s.update = none

instance (s : Gateway) (e : Step) : Decidable (Undisturbed s e) := by
  cases e <;> unfold Undisturbed <;> infer_instance

/-! ### Handlers and lists -/

variable {a b old row : Channel} {db : Database}

section Lemmas

variable {codec} {sorter} {s : Gateway} {call : StatusCall}

theorem Agrees.getKeys (h : Agrees a b) : a.getKeys codec = b.getKeys codec := by
  rw [Channel.getKeys, Channel.getKeys, h.2.1]

theorem Agrees.symm (h : Agrees a b) : Agrees b a :=
  ⟨h.1.symm, h.2.1.symm, h.2.2.1.symm, h.2.2.2.symm⟩

theorem Agrees.trans {c : Channel} (h : Agrees a b) (h' : Agrees b c) : Agrees a c :=
  ⟨h.1.trans h'.1, h.2.1.trans h'.2.1, h.2.2.1.trans h'.2.2.1, h.2.2.2.trans h'.2.2.2⟩

theorem Agrees.handler (h : Agrees a b) :
    Agrees (handlerMultiKeyUpdate codec call a) (handlerMultiKeyUpdate codec call b) := by
  obtain ⟨hstatus, hkey, hmulti, hlist⟩ := h
  have hset (i : Nat) : (a.channelInfo.setKeyStatus i call.status).multiKeyStatusList =
      (b.channelInfo.setKeyStatus i call.status).multiKeyStatusList := by
    simp [ChannelInfo.setKeyStatus, hlist]
  have henabled (keys : List String) (i : Nat) :
      hasEnabledMultiKey keys (a.channelInfo.setKeyStatus i call.status) =
        hasEnabledMultiKey keys (b.channelInfo.setKeyStatus i call.status) := by
    unfold hasEnabledMultiKey ChannelInfo.keyStatus
    rw [hset]
  unfold handlerMultiKeyUpdate
  rw [Agrees.getKeys ⟨hstatus, hkey, hmulti, hlist⟩]
  by_cases hnil : b.getKeys codec = []
  · rw [if_pos hnil, if_pos hnil]
    exact ⟨rfl, hkey, hmulti, hlist⟩
  rw [if_neg hnil, if_neg hnil]
  cases (b.getKeys codec).findIdx? (· = call.usingKey) with
  | none =>
    dsimp only
    split_ifs
    · exact ⟨hstatus, hkey, hmulti, hlist⟩
    · exact ⟨rfl, hkey, hmulti, hlist⟩
  | some i =>
    dsimp only
    rw [henabled]
    split_ifs
    · exact ⟨rfl, hkey, hmulti, hset i⟩
    · exact ⟨rfl, hkey, hmulti, hset i⟩
    · exact ⟨hstatus, hkey, hmulti, hset i⟩

/-- What is saved: a row with the same id and names, and the status that the call asks of the
    channel. -/
theorem savedRow_some (h : savedRow codec call old = some row) :
    (row.id = old.id ∧ row.group = old.group ∧ row.models = old.models ∧
      row.videoEnhance = old.videoEnhance) ∧
    row.status = if old.channelInfo.isMultiKey then (handlerMultiKeyUpdate codec call old).status
      else call.status := by
  unfold savedRow at h
  split_ifs at h with hsame hzero hmulti
  · cases h
    obtain ⟨_, _, _, heq⟩ := handlerMultiKeyUpdate_eq codec call old
    exact ⟨by rw [heq]; exact ⟨rfl, rfl, rfl, rfl⟩, by rw [if_pos hmulti]⟩
  · cases h
    exact ⟨⟨rfl, rfl, rfl, rfl⟩, by rw [if_neg hmulti]⟩

/-- Every channel names its groups and its models once. -/
def NamesOnce (channels : ChannelTable) : Prop :=
  ∀ channel ∈ channels.rows, channel.groups.Nodup ∧ channel.getRoutingModels.Nodup

theorem initIndex_list_nodup {index : Index} (hnames : NamesOnce db.channels)
    (h : initIndex sorter db = some index) (group model : String) :
    (index.list group model).Nodup := by
  rw [(initIndex_list h group model).1.nodup_iff, nodup_iff_count_le_one]
  intro id
  by_cases hid : id ∈ entered db.channels.rows group model
  · obtain ⟨channel, hmem, rfl, -⟩ := mem_entered.mp hid
    obtain ⟨hgroups, hmodels⟩ := hnames channel hmem
    rw [count_entered db.channels.nodup hmem, count_entries]
    split_ifs
    · exact Nat.mul_le_mul (nodup_iff_count_le_one.mp hgroups group)
        (nodup_iff_count_le_one.mp hmodels model)
    · exact Nat.zero_le 1
  · rw [count_eq_zero.mpr hid]
    exact Nat.zero_le 1

theorem cacheUpdateChannelStatus_list (id : Int) (status : ChannelStatus) (group model : String) :
    (s.cacheUpdateChannelStatus id status).index.list group model =
      if status = .enabled then s.index.list group model
        else (s.index.list group model).erase id := by
  unfold Gateway.cacheUpdateChannelStatus Index.list
  split_ifs
  · rfl
  · dsimp only
    cases s.index group <;> rfl

end Lemmas

/-! ### Invariant -/

/-- What the call that is under way has established. -/
def PhaseInvariant (call : StatusCall) : UpdatePhase → Prop
  | .found pointer => ∀ object ∈ s.heap[pointer]?, ∀ row ∈ s.db.channels.get? call.channelId,
    Agrees object row
  | .handled pointer before => ∀ row ∈ s.db.channels.get? call.channelId,
    row.channelInfo.isMultiKey = true ∧ before = row.status ∧
      ∀ object ∈ s.heap[pointer]?, Agrees object (handlerMultiKeyUpdate codec call row)
  | .decided status => ∀ old ∈ s.db.channels.get? call.channelId, ∀ row ∈ savedRow codec call old,
    row.status = status
  | .cached => ∀ old ∈ s.db.channels.get? call.channelId, ∀ row ∈ savedRow codec call old,
    row.status ≠ .enabled → ∀ group model, call.channelId ∉ s.index.list group model

/-- The lists hold enabled channels only, and each once. -/
structure CacheInvariant (s : Gateway) : Prop where
  names : NamesOnce s.db.channels
  listed : ∀ group model, ∀ id ∈ s.index.list group model,
    ∃ row, s.db.channels.get? id = some row ∧ row.status = .enabled
  once : ∀ group model, (s.index.list group model).Nodup
  rebuilds : ∀ read ∈ s.rebuilds, read.channels = s.db.channels
  objects : ∀ id p, s.channelsIDM id = some p → ∃ object, s.heap[p]? = some object ∧ object.id = id
  down : ∀ id ∈ s.down, ∀ row ∈ s.db.channels.get? id, row.status ≠ .enabled

/-- The invariant of undisturbed runs. -/
structure Invariant (s : Gateway) : Prop where
  cache : CacheInvariant s
  apart : s.rebuilds ≠ [] → s.update = none
  phase : ∀ call phase, s.update = some (call, phase) → PhaseInvariant codec s call phase

variable {call : StatusCall}

section Steps

variable {codec} {sorter} {s : Gateway}

theorem Invariant.of_idle (hcache : CacheInvariant s) (hidle : s.update = none) :
    Invariant codec s where
  cache := hcache
  apart _ := hidle
  phase call phase h := by
    rw [hidle] at h
    cases h

section

variable (h : CacheInvariant s)
include h

theorem CacheInvariant.heap {heap : List Channel}
    (hsame : ∀ (p : Nat) (old : Channel), s.heap[p]? = some old →
      ∃ object : Channel, heap[p]? = some object ∧ object.id = old.id)
    (update : Option (StatusCall × UpdatePhase)) : CacheInvariant { s with heap, update } :=
  { h with
    objects := fun id p hp => by
      obtain ⟨old, hold, rfl⟩ := h.objects id p hp
      exact hsame p old hold }

theorem CacheInvariant.cacheUpdateChannelStatus (id : Int) (status : ChannelStatus)
    (update : Option (StatusCall × UpdatePhase)) :
    CacheInvariant { s.cacheUpdateChannelStatus id status with update } := by
  have hheap : ∀ (p : Nat) (old : Channel), s.heap[p]? = some old →
      ∃ object, (s.cacheUpdateChannelStatus id status).heap[p]? = some object ∧
        object.id = old.id := by
    intro p old hold
    unfold Gateway.cacheUpdateChannelStatus
    split
    · next pointer _ =>
      exact ⟨if pointer = p then { old with status } else old, by rw [getElem?_modify, hold]; rfl,
        by split_ifs <;> rfl⟩
    · exact ⟨old, hold, rfl⟩
  exact
    { h.heap hheap update with
      listed := fun group model other hother => by
        rw [cacheUpdateChannelStatus_list] at hother
        refine h.listed group model other ?_
        split_ifs at hother
        · exact hother
        · exact mem_of_mem_erase hother
      once := fun group model => by
        rw [cacheUpdateChannelStatus_list]
        split_ifs
        · exact h.once group model
        · exact (h.once group model).erase id }

theorem CacheInvariant.cacheUpdateChannel (channel : Channel) :
    CacheInvariant (s.cacheUpdateChannel channel) := by
  refine { h with objects := fun id p hp => ?_ }
  simp only [Gateway.cacheUpdateChannel] at hp ⊢
  by_cases hid : id = channel.id
  · rw [hid, Function.update_self, Option.some.injEq] at hp
    subst hp
    exact ⟨channel, by simp, hid.symm⟩
  · rw [Function.update_of_ne hid] at hp
    obtain ⟨object, hobject, heq⟩ := h.objects id p hp
    exact ⟨object, getElem?_append_left (List.getElem?_eq_some_iff.mp hobject).1 ▸ hobject, heq⟩

/-- A rebuild publishes the lists of the database as it is, since nothing has been saved since its
    read. -/
theorem CacheInvariant.publish {read : Database} (hread : read ∈ s.rebuilds)
    {rebuilds : List Database}
    (hrebuilds : ∀ other ∈ rebuilds, other ∈ s.rebuilds) :
    CacheInvariant { s.publish sorter read with rebuilds } := by
  have hsame := h.rebuilds read hread
  unfold Gateway.publish
  split
  · exact { h with rebuilds := fun other hother => h.rebuilds other (hrebuilds other hother) }
  next index hindex =>
  exact
    { h with
      listed := fun group model id hid => by
        obtain ⟨row, hrow, hserves⟩ := (mem_index_list hindex).mp hid
        exact ⟨row, hsame ▸ hrow, hserves.1⟩
      once := initIndex_list_nodup (hsame.symm ▸ h.names) hindex
      rebuilds := fun other hother => h.rebuilds other (hrebuilds other hother)
      objects := fun id p hp => by
        obtain ⟨place, hplace, rfl⟩ := Option.map_eq_some_iff.mp hp
        obtain ⟨hlt, hid, -⟩ := findIdx?_eq_some_iff_getElem.mp hplace
        refine ⟨keepPollingIndex (s.cachedObject read.channels.rows[place].id)
          read.channels.rows[place], ?_, ?_⟩
        · rw [getElem?_append_right (Nat.le_add_right _ _), Nat.add_sub_cancel_left, getElem?_map,
            getElem?_eq_getElem]
          rfl
        · obtain ⟨_, heq⟩ := keepPollingIndex_eq (s.cachedObject read.channels.rows[place].id)
            read.channels.rows[place]
          rw [heq]
          simpa using hid }

/-- A row is saved once its channel is in no list, or it stays enabled. -/
theorem CacheInvariant.saveRow (hold : s.db.channels.get? call.channelId = some old)
    (hrow : savedRow codec call old = some row)
    (hrebuilds : s.rebuilds = [])
    (hlists : row.status ≠ .enabled → ∀ group model, call.channelId ∉ s.index.list group model) :
    CacheInvariant (s.saveRow call old row) := by
  obtain ⟨⟨hid, hgroup, hmodels, hvideo⟩, -⟩ := savedRow_some hrow
  have hkey : row.id = call.channelId := hid.trans (Table.key_of_get? hold)
  have hget (id : Int) : (s.db.channels.set row).get? id =
      if row.id = id then some row else s.db.channels.get? id := Table.get?_set _ _ _
  exact
    { h with
      names := fun channel hmem => by
        rcases Table.mem_rows_set.mp hmem with rfl | ⟨hmem, -⟩
        · have hnames := h.names old (Table.mem_of_get? hold)
          simp only [Channel.groups, Channel.getRoutingModels, Channel.getModels,
            Channel.seedanceEnhanceConfig, hgroup, hmodels, hvideo] at hnames ⊢
          exact hnames
        · exact h.names channel hmem
      listed := fun group model id hmem => by
        change ∃ found, (s.db.channels.set row).get? id = some found ∧ _
        rw [hget]
        split_ifs with heq
        · refine ⟨row, rfl, ?_⟩
          by_contra hdisabled
          exact hlists hdisabled group model (hkey ▸ heq ▸ hmem)
        · exact h.listed group model id hmem
      rebuilds := fun read hread => by
        change read ∈ s.rebuilds at hread
        rw [hrebuilds] at hread
        cases hread
      down := fun id hid found hfound => by
        change (s.db.channels.set row).get? id = some found at hfound
        rw [hget] at hfound
        change id ∈ (if row.status = .enabled then _ else _) at hid
        split_ifs at hfound hid with heq henabled
        · rw [mem_filter, decide_eq_true_iff] at hid
          exact absurd (heq.symm.trans hkey) hid.2
        · cases hfound
          exact henabled
        · exact h.down id (mem_of_mem_filter hid) found hfound
        · rcases mem_cons.mp hid with rfl | hid
          · exact absurd hkey heq
          · exact h.down id hid found hfound }

end

theorem Invariant.of_phase (hcache : CacheInvariant s) (hrebuilds : s.rebuilds = [])
    {phase : UpdatePhase} (hupdate : s.update = some (call, phase))
    (hphase : PhaseInvariant codec s call phase) :
    Invariant codec s where
  cache := hcache
  apart hne := absurd hrebuilds hne
  phase call' phase' h := by
    rw [hupdate] at h
    cases h
    exact hphase

theorem Invariant.advance (hcache : CacheInvariant s) (hrebuilds : s.rebuilds = [])
    (phase : UpdatePhase) (hphase : PhaseInvariant codec s call phase) :
    Invariant codec { s with update := some (call, phase) } :=
  .of_phase (hcache.heap (fun _ old hold => ⟨old, hold, rfl⟩) _) hrebuilds rfl
    (by cases phase <;> exact hphase)

theorem Invariant.updateNext (h : Invariant codec s) : Invariant codec (s.updateNext codec) := by
  unfold Gateway.updateNext
  cases hupdate : s.update with
  | none => exact h
  | some under =>
    obtain ⟨call, phase⟩ := under
    have hphase := h.phase call phase hupdate
    have hrebuilds : s.rebuilds = [] := by
      by_contra hne
      rw [h.apart hne] at hupdate
      cases hupdate
    have hstop : Invariant codec { s with update := none } :=
      .of_idle (h.cache.heap (fun _ old hold => ⟨old, hold, rfl⟩) none) rfl
    cases phase with
    | found pointer =>
      dsimp only
      cases hobject : s.heap[pointer]? with
      | none => exact hstop
      | some object =>
        dsimp only
        have hagrees := hphase object hobject
        split_ifs with hmulti hsame
        · refine .of_phase (h.cache.heap (fun p old hold => ?_) _) hrebuilds rfl fun row hrow => ?_
          · rw [getElem?_set]
            split_ifs with hp hlt
            · obtain ⟨_, _, _, heq⟩ := handlerMultiKeyUpdate_eq codec call object
              subst hp
              rw [hobject] at hold
              cases hold
              exact ⟨_, rfl, by rw [heq]⟩
            · exact absurd (List.getElem?_eq_some_iff.mp hobject).1 (hp ▸ hlt)
            · exact ⟨old, hold, rfl⟩
          · refine ⟨(hagrees row hrow).2.2.1.symm.trans hmulti, (hagrees row hrow).1,
              fun changed hchanged => ?_⟩
            rw [getElem?_set_self (List.getElem?_eq_some_iff.mp hobject).1] at hchanged
            cases hchanged
            exact (hagrees row hrow).handler
        · exact hstop
        · refine .advance h.cache hrebuilds _ fun old hold row hrow => ?_
          have hsingle : ¬ old.channelInfo.isMultiKey = true := fun hm =>
            hmulti ((hagrees old hold).2.2.1.trans hm)
          rw [(savedRow_some hrow).2, if_neg hsingle]
    | handled pointer before =>
      dsimp only
      cases hobject : s.heap[pointer]? with
      | none => exact hstop
      | some object =>
        dsimp only
        have hstatus (old : Channel) (hold : s.db.channels.get? call.channelId = some old)
          (row : Channel)
            (hrow : savedRow codec call old = some row) :
            row.status = object.status ∧ before = old.status := by
          obtain ⟨hmulti, hbefore, hagrees⟩ := hphase old hold
          rw [(savedRow_some hrow).2, if_pos hmulti]
          exact ⟨(hagrees object hobject).1.symm, hbefore⟩
        split_ifs with hchanged
        · exact .advance h.cache hrebuilds _ fun old hold row hrow => (hstatus old hold row hrow).1
        refine .advance h.cache hrebuilds _ fun old hold row hrow hdisabled group model hmem =>
          hdisabled ?_
        -- the status stays, and the channel is listed, so it is enabled
        obtain ⟨listed, hlisted, henabled⟩ := h.cache.listed group model _ hmem
        rw [show s.db.channels.get? call.channelId = some old from hold] at hlisted
        cases hlisted
        obtain ⟨hrowStatus, hbefore⟩ := hstatus old hold row hrow
        rw [hrowStatus, ← not_not.mp hchanged, hbefore, henabled]
    | decided status =>
      refine .of_phase (h.cache.cacheUpdateChannelStatus call.channelId status _) hrebuilds rfl
        fun old hold row hrow hdisabled group model hmem => ?_
      rw [cacheUpdateChannelStatus_list, if_neg (hphase old hold row hrow ▸ hdisabled)] at hmem
      exact (h.cache.once group model).not_mem_erase hmem
    | cached =>
      dsimp only
      cases hold : s.db.channels.get? call.channelId with
      | none => exact hstop
      | some old =>
        dsimp only
        cases hrow : savedRow codec call old with
        | none => exact hstop
        | some row =>
          exact .of_idle (h.cache.saveRow hold hrow hrebuilds (hphase old hold row hrow)) rfl

theorem Invariant.step (h : Invariant codec s) {e : Step} (hquiet : Undisturbed s e) :
    Invariant codec (step codec sorter s e) := by
  cases e with
  | updateStart call =>
    rw [Channels.step]
    split_ifs with hbusy
    · exact h
    split
    · exact h
    · next pointer hpointer =>
      refine .advance h.cache hquiet.1 _ fun object hobject row hrow => ?_
      exact hquiet.2 object (Option.bind_eq_some_iff.mpr ⟨pointer, hpointer, hobject⟩) row hrow
  | updateNext => exact h.updateNext
  | cacheUpdateChannelStatus id status =>
    exact .of_idle (h.cache.cacheUpdateChannelStatus id status _) hquiet
  | cacheUpdateChannel channel => exact .of_idle (h.cache.cacheUpdateChannel channel) hquiet
  | initRead =>
    exact .of_idle { h.cache with
      rebuilds := forall_mem_append.mpr ⟨h.cache.rebuilds, forall_mem_singleton.mpr rfl⟩ } hquiet
  | initPublish place =>
    rw [Channels.step]
    split
    · exact h
    next read hread =>
    refine .of_idle (h.cache.publish (mem_of_getElem? hread) fun other => mem_of_mem_eraseIdx) ?_
    unfold Gateway.publish
    split <;> exact hquiet

end Steps

/-! ### Requests -/

/-- A gateway before the first rebuild. -/
def Gateway.start (db : Database) : Gateway := { db }

theorem Gateway.start_invariant (hnames : NamesOnce db.channels) : Invariant codec (start db) :=
  .of_idle
    { names := hnames
      listed := fun _ _ id hid => absurd hid not_mem_nil
      once := fun _ _ => nodup_nil
      rebuilds := fun read hread => absurd hread not_mem_nil
      objects := fun _ _ hp => absurd hp (by simp [start])
      down := fun id hid => absurd hid not_mem_nil } rfl

/-- **A disabled channel gets no requests.**  In every run without overlap, from any database in
    which channels name their groups and models once, no selection returns a channel that a call has
    disabled. -/
theorem disabled_channel_gets_no_requests (routing : Routing) {db : Database}
    (hnames : NamesOnce db.channels) {steps : List Step}
    (hrun : Along (step codec sorter) Undisturbed (.start db) steps) (group model : String)
    (retry : Nat)
    (filters : List ChannelFilter) (random : Nat) {channel : Channel}
    (hselected : getRandomSatisfiedChannel routing (run (step codec sorter) (.start db) steps).index
      (run (step codec sorter) (.start db) steps).cachedObject group model retry filters random =
        .ok (some channel)) : channel.id ∉ (run (step codec sorter) (.start db) steps).down := by
  have hinv : Invariant codec (run (step codec sorter) (.start db) steps) :=
    invariant_along (fun _ _ hs hstep => hs.step hstep) _ _ (Gateway.start_invariant codec hnames)
      hrun
  generalize run (step codec sorter) (.start db) steps = s at *
  obtain ⟨id, name, hlisted, hobject⟩ := getRandomSatisfiedChannel_listed routing hselected
  have hid : channel.id = id := by
    obtain ⟨pointer, hpointer, hget⟩ := Option.bind_eq_some_iff.mp hobject
    obtain ⟨object, hfound, hid⟩ := hinv.cache.objects id pointer hpointer
    rw [hget] at hfound
    cases hfound
    exact hid
  obtain ⟨row, hrow, henabled⟩ := hinv.cache.listed group name id hlisted
  intro hdown
  exact hinv.cache.down id (hid ▸ hdown) row hrow henabled

/-! ### Runs -/

def lineKeys : KeyCodec := ⟨fun _ => none⟩

def runFrom (channels : List Channel) (steps : List Step) : Gateway :=
  run (step lineKeys insertionSorter) (.start (databaseOf channels)) steps

/-- A whole call of `UpdateChannelStatus`. -/
def wholeUpdate (call : StatusCall) : List Step :=
  [.updateStart call, .updateNext, .updateNext, .updateNext]

/-- Two channels, the first of which is disabled. -/
def disableFirst : List Step :=
  [.initRead, .initPublish 0] ++ wholeUpdate ⟨1, "", .manuallyDisabled, ""⟩

theorem disableFirst_selects_second :
    (runFrom [{ id := 1, models := "a" }, { id := 2, models := "a" }] disableFirst).down = [1] ∧
    (2 : Int) ∉ (runFrom [{ id := 1, models := "a" }, { id := 2, models := "a" }]
      disableFirst).down :=
  ⟨by decide, @disabled_channel_gets_no_requests lineKeys insertionSorter gizmoRouting
    (databaseOf [{ id := 1, models := "a" }, { id := 2, models := "a" }])
      (by unfold NamesOnce; decide)
    disableFirst (by decide) "default" "a" 0 [] 0 { id := 2, models := "a" } (by rfl)⟩

/-- A selection returns a channel that has been disabled. -/
def Gateway.selectsDisabled (group model : String) : Bool :=
  match getRandomSatisfiedChannel gizmoRouting s.index s.cachedObject group model 0 [] 0 with
  | .ok (some channel) => s.down.contains channel.id
  | _ => false

/-- A disabled channel is selected: after a rebuild that read before and published later, after a
    status update of a channel listed twice, and after its last key was disabled in the database
    only. -/
theorem disabled_channel_is_selected :
    (runFrom [{ id := 1, models := "a" }] ([.initRead, .initPublish 0, .initRead] ++
      wholeUpdate ⟨1, "", .manuallyDisabled, ""⟩ ++ [.initPublish 0])).selectsDisabled "default"
        "a" ∧
    (runFrom [{ id := 1, models := "a,a" }] disableFirst).selectsDisabled "default" "a" ∧
    (runFrom [{ id := 1, models := "a", key := "x\ny", channelInfo := { isMultiKey := true } }]
      ([.initRead, .initPublish 0] ++ wholeUpdate ⟨1, "x", .autoDisabled, ""⟩ ++
        wholeUpdate ⟨1, "x", .enabled, ""⟩ ++
          wholeUpdate ⟨1, "y", .autoDisabled, ""⟩)).selectsDisabled
      "default" "a" := by
  decide

/-! ### Calls one after the other -/

/-- A call of `UpdateChannelStatus` from its start to its end. -/
def updateChannelStatus (s : Gateway) (call : StatusCall) : Gateway :=
  run (step codec sorter) s (wholeUpdate call ++ [.updateNext])

/-- Cache and database agree about a channel with several keys. -/
structure InStep (id : Int) (object row : Channel) (s : Gateway) : Prop where
  idle : s.update = none
  cached : s.cachedObject id = some object
  stored : s.db.channels.get? id = some row
  multi : row.channelInfo.isMultiKey = true
  agrees : Agrees object row
  abilities : ∀ ability ∈ s.db.abilities, ability.channelId = id →
    (ability.enabled = true ↔ row.status = .enabled)
  keys : row.status = .enabled → hasEnabledMultiKey (row.getKeys codec) row.channelInfo = true

/-- The call is about the channel as a whole, not about one of its keys. -/
def StatusCall.Whole (call : StatusCall) (row : Channel) : Prop :=
  row.getKeys codec = [] ∨ call.usingKey = "" ∧ call.usingKey ∉ row.getKeys codec

/-- A call of which nothing is lost: the row does not have the status yet, or a manual operation
    replaces its reason, or the key of the call has it already and the channel an enabled key or the
    status of one without. And no channel without an enabled key is enabled. -/
def Lossless (id : Int) (s : Gateway) (call : StatusCall) : Prop :=
  ∀ row ∈ s.db.channels.get? id,
    (row.status ≠ call.status ∨ overridesKeyExhaustion call row = true ∨
      ∀ i ∈ (row.getKeys codec).findIdx? (· = call.usingKey),
        row.channelInfo.multiKeyStatusList.lookup i = ChannelInfo.statusEntry call.status ∧
          (hasEnabledMultiKey (row.getKeys codec) row.channelInfo = true ∨
            call.status = .autoDisabled)) ∧
    (call.status = .enabled → call.Whole codec row →
      hasEnabledMultiKey (row.getKeys codec) row.channelInfo = true)

instance (row : Channel) :
    Decidable (call.Whole codec row) := inferInstanceAs (Decidable (_ ∨ _ ∧ _))

instance (id : Int) (s : Gateway) : Decidable (Lossless codec id s call) := by
  unfold Lossless
  infer_instance

section Calls

variable {codec sorter} {s : Gateway} {object : Channel} {id : Int}

/-- A call about the whole channel sets its status, and leaves the list of keys alone. -/
theorem handlerMultiKeyUpdate_whole (h : call.Whole codec row) :
    (handlerMultiKeyUpdate codec call row).status = call.status ∧
      (handlerMultiKeyUpdate codec call row).channelInfo = row.channelInfo := by
  unfold handlerMultiKeyUpdate
  obtain hnil | ⟨hempty, hmem⟩ := h
  · rw [if_pos hnil]
    exact ⟨rfl, rfl⟩
  · have hfind : (row.getKeys codec).findIdx? (· = call.usingKey) = none := by
      refine findIdx?_eq_none_iff.mpr fun key hkey => decide_eq_false fun heq => hmem ?_
      rwa [← heq]
    dsimp only
    rw [hfind]
    split_ifs <;> simp_all

/-- The channel is enabled with a key, and its status changes to enabled iff the call says so. -/
theorem handlerMultiKeyUpdate_enabled
    (hkeys : row.status = .enabled → hasEnabledMultiKey (row.getKeys codec) row.channelInfo = true)
    (hwhole : call.status = .enabled → call.Whole codec row →
      hasEnabledMultiKey (row.getKeys codec) row.channelInfo = true) :
    let row' := handlerMultiKeyUpdate codec call row
    (row'.status = .enabled → hasEnabledMultiKey (row.getKeys codec) row'.channelInfo = true) ∧
      (row.status ≠ row'.status → (call.status = .enabled ↔ row'.status = .enabled)) := by
  by_cases hcall : call.Whole codec row
  · obtain ⟨hstatus, hinfo⟩ := handlerMultiKeyUpdate_whole hcall
    dsimp only
    rw [hstatus, hinfo]
    exact ⟨fun h => hwhole h hcall, fun _ => Iff.rfl⟩
  obtain ⟨hnil, hempty⟩ := not_or.mp hcall
  unfold handlerMultiKeyUpdate
  dsimp only
  rw [if_neg hnil]
  cases hfind : (row.getKeys codec).findIdx? (· = call.usingKey) with
  | none =>
    have hmem : call.usingKey ∉ row.getKeys codec := fun hmem => by
      simpa using findIdx?_eq_none_iff.mp hfind _ hmem
    dsimp only
    rw [if_pos fun heq => hempty ⟨heq, hmem⟩]
    exact ⟨hkeys, fun hne => absurd rfl hne⟩
  | some i =>
    have hlt := (findIdx?_eq_some_iff_getElem.mp hfind).1
    have henabled (h : call.status = .enabled) : hasEnabledMultiKey (row.getKeys codec)
        (row.channelInfo.setKeyStatus i call.status) = true := by
      simp only [hasEnabledMultiKey, any_eq_true, mem_range]
      exact ⟨i, hlt, by simp [h]⟩
    dsimp only
    split_ifs with hnone hcall
    · refine ⟨fun h => by simp at h, fun _ => ⟨fun h => ?_, fun h => by simp at h⟩⟩
      simp [henabled h] at hnone
    · exact ⟨fun _ => henabled hcall, fun _ => by simp [hcall]⟩
    · exact ⟨fun _ => by simpa using hnone, fun hne => absurd rfl hne⟩

/-- A call for the status that the row has changes neither the status nor the list iff its key has
    that status already, and the channel an enabled key or the status of one without. -/
theorem handlerMultiKeyUpdate_agrees (hstatus : row.status = call.status) :
    Agrees (handlerMultiKeyUpdate codec call row) row ↔
      ∀ i ∈ (row.getKeys codec).findIdx? (· = call.usingKey),
        row.channelInfo.multiKeyStatusList.lookup i = ChannelInfo.statusEntry call.status ∧
          (hasEnabledMultiKey (row.getKeys codec) row.channelInfo = true ∨
            call.status = .autoDisabled) := by
  unfold handlerMultiKeyUpdate
  dsimp only
  by_cases hnil : row.getKeys codec = []
  · rw [if_pos hnil, hnil]
    exact iff_of_true ⟨hstatus.symm, rfl, rfl, rfl⟩ nofun
  rw [if_neg hnil]
  cases (row.getKeys codec).findIdx? (· = call.usingKey) with
  | none =>
    dsimp only
    split_ifs
    · exact iff_of_true ⟨rfl, rfl, rfl, rfl⟩ nofun
    · exact iff_of_true ⟨hstatus.symm, rfl, rfl, rfl⟩ nofun
  | some i =>
    simp only [Option.mem_def, Option.some.injEq, forall_eq', ← row.channelInfo.setKeyStatus_eq_iff]
    have hlist (h : (row.channelInfo.setKeyStatus i call.status).multiKeyStatusList =
        row.channelInfo.multiKeyStatusList) : hasEnabledMultiKey (row.getKeys codec)
          (row.channelInfo.setKeyStatus i call.status) =
        hasEnabledMultiKey (row.getKeys codec) row.channelInfo := by
      unfold hasEnabledMultiKey ChannelInfo.keyStatus
      rw [h]
    split_ifs with hnone hcall
    · constructor
      · exact fun h => ⟨h.2.2.2, .inr (hstatus.symm.trans h.1.symm)⟩
      · rintro ⟨h, hkey | hauto⟩
        · simp [hlist h, hkey] at hnone
        · exact ⟨hauto.symm.trans hstatus.symm, rfl, rfl, h⟩
    · exact ⟨fun h => ⟨h.2.2.2, .inl (by simpa [hlist h.2.2.2] using hnone)⟩,
        fun h => ⟨hcall.symm.trans hstatus.symm, rfl, rfl, h.1⟩⟩
    · exact ⟨fun h => ⟨h.2.2.2, .inl (by simpa [hlist h.2.2.2] using hnone)⟩,
        fun h => ⟨rfl, rfl, rfl, h.1⟩⟩

/-- What a call does: the handler changes the object, and the row is saved or stays. -/
theorem updateChannelStatus_spec (sorter : SortSlice) (h : InStep codec id object row s)
    (hid : call.channelId = id) :
    let s' := updateChannelStatus codec sorter s call
    s'.update = none ∧ s'.cachedObject id = some (handlerMultiKeyUpdate codec call object) ∧
      s'.db = (savedRow codec call row).elim s.db fun saved => (s.saveRow call row saved).db := by
  subst hid
  obtain ⟨pointer, hpointer, hobject⟩ := Option.bind_eq_some_iff.mp h.cached
  have hmulti : object.channelInfo.isMultiKey = true := h.agrees.2.2.1.trans h.multi
  have hset : (s.heap.set pointer (handlerMultiKeyUpdate codec call object))[pointer]? =
      some (handlerMultiKeyUpdate codec call object) :=
    getElem?_set_self (List.getElem?_eq_some_iff.mp hobject).1
  by_cases hsame : object.status = (handlerMultiKeyUpdate codec call object).status <;>
    cases hsaved : savedRow codec call row <;>
    simp [updateChannelStatus, wholeUpdate, step, Gateway.updateNext,
      Gateway.cacheUpdateChannelStatus,
      Gateway.saveRow, Gateway.cachedObject, h.idle, hpointer, hobject, hmulti, hset, hsame,
        h.stored, hsaved]

/-- The row is saved unless it has the status already. -/
theorem savedRow_multi (hid : row.id ≠ 0) (hmulti : row.channelInfo.isMultiKey = true) :
    savedRow codec call row =
      if row.status = call.status ∧ overridesKeyExhaustion call row = false then none
      else some (handlerMultiKeyUpdate codec call row) := by
  unfold savedRow
  simp only [Bool.not_eq_true', if_neg hid, if_pos hmulti]

/-- A call of which nothing is lost keeps cache and database in step. -/
theorem InStep.update (hzero : id ≠ 0) (h : InStep codec id object row s)
    (hid : call.channelId = id) (hcall : Lossless codec id s call) :
    ∃ row', InStep codec id (handlerMultiKeyUpdate codec call object) row'
      (updateChannelStatus codec sorter s call) := by
  obtain ⟨hidle, hcached, hdb⟩ := updateChannelStatus_spec sorter h hid
  obtain ⟨hlost, hwhole⟩ := hcall row h.stored
  have hkey : row.id = id := Table.key_of_get? h.stored
  have hagrees : Agrees _ (handlerMultiKeyUpdate codec call row) := h.agrees.handler
  rw [savedRow_multi (hkey ▸ hzero) h.multi] at hdb
  split_ifs at hdb with hsaved
  · obtain ⟨hstatus, hkeeps⟩ := hsaved
    have hsame : Agrees (handlerMultiKeyUpdate codec call row) row := by
      refine (handlerMultiKeyUpdate_agrees hstatus).mpr ?_
      obtain hne | hover | hkept := hlost
      · exact absurd hstatus hne
      · rw [hkeeps] at hover
        cases hover
      · exact hkept
    exact ⟨row, hidle, hcached, hdb ▸ h.stored, h.multi, hagrees.trans hsame, hdb ▸ h.abilities,
      h.keys⟩
  · obtain ⟨hkeys, henabled⟩ := handlerMultiKeyUpdate_enabled h.keys hwhole
    obtain ⟨_, _, _, heq⟩ := handlerMultiKeyUpdate_eq codec call row
    have hmulti : (handlerMultiKeyUpdate codec call row).channelInfo.isMultiKey = true := by
      rw [heq]
      exact h.multi
    refine ⟨_, hidle, hcached, ?_, hmulti, hagrees, fun ability hability hid' => ?_, ?_⟩
    · rw [hdb]
      exact Table.get?_set_of_eq _ (by rw [heq]; exact hkey)
    · rw [hdb] at hability
      simp only [Option.elim_some, Gateway.saveRow, hmulti, hid] at hability
      split_ifs at hability with hchanged
      · obtain ⟨old, hold, rfl⟩ := mem_map.mp hability
        split_ifs at hid' ⊢ with hother
        · simpa using henabled (by simpa using hchanged)
        · exact absurd hid' hother
      · have : row.status = (handlerMultiKeyUpdate codec call row).status := by simpa using hchanged
        rw [← this]
        exact h.abilities ability hability hid'
    · rw [Channel.getKeys, show (handlerMultiKeyUpdate codec call row).key = row.key by rw [heq]]
      exact hkeys

/-- A call that keeps them in step loses nothing. -/
theorem InStep.lossless (hzero : id ≠ 0) (h : InStep codec id object row s)
    (hid : call.channelId = id) {object' row' : Channel}
    (h' : InStep codec id object' row' (updateChannelStatus codec sorter s call)) :
    Lossless codec id s call := by
  obtain ⟨-, hcached, hdb⟩ := updateChannelStatus_spec sorter h hid
  have hkey : row.id = id := Table.key_of_get? h.stored
  rw [savedRow_multi (hkey ▸ hzero) h.multi] at hdb
  obtain rfl : handlerMultiKeyUpdate codec call object = object' :=
    Option.some.inj (hcached.symm.trans h'.cached)
  intro other hother
  obtain rfl : row = other := Option.some.inj (h.stored.symm.trans hother)
  refine ⟨?_, fun henabled hwhole => ?_⟩
  · by_contra hlost
    simp only [not_or, not_not] at hlost
    obtain ⟨hstatus, hover, hkept⟩ := hlost
    rw [if_pos ⟨hstatus, by simpa using hover⟩] at hdb
    have hstored := h'.stored
    rw [hdb] at hstored
    obtain rfl : row = row' := Option.some.inj (h.stored.symm.trans hstored)
    have hhandler : Agrees (handlerMultiKeyUpdate codec call object) _ := h.agrees.handler
    exact hkept ((handlerMultiKeyUpdate_agrees hstatus).mp (hhandler.symm.trans h'.agrees))
  · by_cases hstatus : row.status = call.status
    · exact h.keys (hstatus.trans henabled)
    · rw [if_neg fun hsame => hstatus hsame.1] at hdb
      obtain ⟨_, _, _, heq⟩ := handlerMultiKeyUpdate_eq codec call row
      have hget : (updateChannelStatus codec sorter s call).db.channels.get? id =
          some (handlerMultiKeyUpdate codec call row) := by
        rw [hdb]
        exact Table.get?_set_of_eq _ (by rw [heq]; exact hkey)
      obtain rfl := Option.some.inj (hget.symm.trans h'.stored)
      obtain ⟨hset, hinfo⟩ := handlerMultiKeyUpdate_whole hwhole
      have hkeys := h'.keys (hset.trans henabled)
      rwa [hinfo, Channel.getKeys,
        show (handlerMultiKeyUpdate codec call row).key = row.key by rw [heq]] at hkeys

/-- **Cache and database agree on the status** iff no call is lost.  That they agree means: the
    cached status and status list are those of the row, the ability rows are enabled iff the row is,
    and an enabled channel has an enabled key. -/
theorem status_in_step (hzero : id ≠ 0) (h : InStep codec id object row s) {calls : List StatusCall}
    (hid : ∀ call ∈ calls, call.channelId = id) :
    Along (updateChannelStatus codec sorter) (fun s call => ∃ object row,
        InStep codec id object row (updateChannelStatus codec sorter s call)) s calls ↔
      Along (updateChannelStatus codec sorter) (Lossless codec id) s calls := by
  refine along_congr (I := fun s => ∃ object row, InStep codec id object row s) ?_ s calls ⟨_, _, h⟩
    (along_of_forall s calls fun call hcall _ => hid call hcall)
  rintro s call ⟨object, row, h⟩ hid
  refine ⟨⟨?_, fun hcall => ⟨_, h.update hzero hid hcall⟩⟩,
    fun hcall => ⟨_, h.update hzero hid hcall⟩⟩
  rintro ⟨object', row', h'⟩
  exact h.lossless hzero hid h'

end Calls

def twoKeys :
    Channel := { id := 1, models := "a", key := "x\ny", channelInfo := { isMultiKey := true } }

/-- The status calls on a gateway that has the channel in its cache. -/
def afterCalls (calls : List StatusCall) : Gateway :=
  run (updateChannelStatus lineKeys insertionSorter) (runFrom [twoKeys] [.initRead, .initPublish 0])
    calls

/-- One key after the other is disabled, and then the first enabled again. -/
theorem status_in_step_disabled :
    Along (updateChannelStatus lineKeys insertionSorter) (fun s call => ∃ object row,
        InStep lineKeys 1 object row (updateChannelStatus lineKeys insertionSorter s call))
      (runFrom [twoKeys] [.initRead, .initPublish 0])
      [⟨1, "x", .autoDisabled, ""⟩, ⟨1, "y", .autoDisabled, ""⟩, ⟨1, "x", .enabled, ""⟩] :=
  (@status_in_step lineKeys insertionSorter twoKeys _ twoKeys 1 (by decide)
    ⟨rfl, rfl, rfl, rfl, by decide, by decide, by decide⟩ _ (by decide)).mpr
    (by decide)

/-- A key that is enabled again while the channel is enabled stays disabled in the database, and a
    channel without an enabled key is enabled. -/
theorem status_drifts :
    let list (channel : Channel) := channel.channelInfo.multiKeyStatusList
    let drifted := afterCalls [⟨1, "x", .autoDisabled, ""⟩, ⟨1, "x", .enabled, ""⟩]
    let exhausted := afterCalls [⟨1, "x", .autoDisabled, ""⟩, ⟨1, "y", .autoDisabled, ""⟩,
      ⟨1, "", .enabled, ""⟩]
    (drifted.cachedObject 1).map list = some [] ∧
      (drifted.db.channels.get? 1).map list = some [(0, .autoDisabled)] ∧
      (exhausted.db.channels.get? 1).map (fun row =>
        (row.status, hasEnabledMultiKey (row.getKeys lineKeys) row.channelInfo)) =
          some (.enabled, false) := by
  decide

end TokenGateway.Channels
