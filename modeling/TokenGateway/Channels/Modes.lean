import TokenGateway.Channels.Select

namespace TokenGateway.Channels

open Base Channel List

/-!
# Selection with and without the cache

* `passes` — what both modes ask of a channel;
* `levelOf_congr` — a level depends on the items only as a set;
* `selection_agrees_iff` — when both modes offer the same channels for every retry and every filter.
-/

variable (routing : Routing)

/-! ### Filters -/

variable {channelsIDM : ChannelMap} {modelName : String} {filters : List ChannelFilter}
  {ids : List Int}

/-- A channel passes every filter. -/
def passes (ch : Channel) (modelName : String) (filters : List ChannelFilter) : Bool :=
  seedanceEnhanceChannelAvailable routing ch modelName &&
    filterEvalOrder.all fun kind => (filtersByKind filters kind).all
      (channelMatchesFilter routing ch modelName)

theorem channelSatisfiesFilters_some (ch : Channel) (modelName : String)
    (filters : List ChannelFilter) :
    (channelSatisfiesFilters routing (some ch) modelName filters).1 =
      passes routing ch modelName filters := by
  unfold channelSatisfiesFilters passes
  dsimp only
  cases seedanceEnhanceChannelAvailable routing ch modelName with
  | false => rfl
  | true =>
    rw [if_neg (by decide), Bool.true_and]
    split
    · next kind hfound =>
      refine (all_eq_false.mpr ⟨kind, mem_of_find?_eq_some hfound, ?_⟩).symm
      simpa using find?_some hfound
    · next hnone =>
      refine (all_eq_true.mpr fun kind hkind => ?_).symm
      simpa using find?_eq_none.mp hnone kind hkind

/-- The loop over the kinds keeps what passes each of them. -/
theorem filterCandidates_fst (kinds : List FilterKind) {kept : List Int}
    (hknown : ∀ id ∈ kept, (channelsIDM id).isSome = true) :
    (filterCandidates routing channelsIDM modelName filters kinds kept).1 =
      kept.filter fun id => kinds.all fun kind =>
        candidatePassesKindFilters routing (channelsIDM id) modelName kind
          (filtersByKind filters kind) := by
  induction kinds generalizing kept with
  | nil => simp [filterCandidates]
  | cons kind rest ih =>
    rw [filterCandidates]
    dsimp only
    -- a kind that is skipped lets every channel pass
    have hskip (hs : (kind = .videoEnhance ∧ Seedance.baseModel modelName = none) ∨
        (filtersByKind filters kind = [] ∧ kind ≠ .videoEnhance)) : ∀ id ∈ kept,
        candidatePassesKindFilters routing (channelsIDM id) modelName kind
          (filtersByKind filters kind) = true := by
      intro id hid
      obtain ⟨ch, hch⟩ := Option.isSome_iff_exists.mp (hknown id hid)
      rw [hch]
      rcases hs with ⟨rfl, hbase⟩ | ⟨hnil, hne⟩
      · have hall : (filtersByKind filters .videoEnhance).all
          (channelMatchesFilter routing ch modelName) = true := by
          refine all_eq_true.mpr fun filter hfilter => ?_
          rw [filtersByKind, mem_filter, decide_eq_true_iff] at hfilter
          rw [channelMatchesFilter, hfilter.2]
        simp [candidatePassesKindFilters, seedanceEnhanceChannelAvailable, hbase, hall]
      · simp [candidatePassesKindFilters, hnil, hne]
    split_ifs with hs hempty
    · rw [ih hknown]
      refine filter_congr fun id hid => ?_
      rw [all_cons, hskip hs id hid, Bool.true_and]
    · have hnone := filter_eq_nil_iff.mp hempty.2
      rw [hempty.2, eq_comm, filter_eq_nil_iff]
      intro id hid
      rw [all_cons, Bool.and_eq_true]
      exact fun h => hnone id hid h.1
    · rw [ih fun id hid => hknown id (mem_of_mem_filter hid), filter_filter]
      refine filter_congr fun id _ => ?_
      rw [all_cons, Bool.and_comm]

theorem passes_eq_all (ch : Channel) (modelName : String) (filters : List ChannelFilter) :
    (filterEvalOrder.all fun kind =>
      candidatePassesKindFilters routing (some ch) modelName kind (filtersByKind filters kind)) =
      passes routing ch modelName filters := by
  simp only [filterEvalOrder, passes, candidatePassesKindFilters]
  cases seedanceEnhanceChannelAvailable routing ch modelName <;> simp

/-- The candidates are the channels of the list that pass. -/
theorem mem_filterCandidateIDs {channels : ChannelTable}
    (hknown : ∀ id ∈ ids, (channels.get? id).isSome = true) {id : Int} :
    id ∈ (filterCandidateIDs routing channels.get? ids modelName filters).1 ↔
      id ∈ ids ∧ ∃ ch, channels.get? id = some ch ∧ passes routing ch modelName filters = true := by
  unfold filterCandidateIDs
  split_ifs with hnil
  · simp [hnil]
  rw [filterCandidates_fst routing _ hknown, mem_filter]
  refine and_congr_right fun hid => ?_
  obtain ⟨ch, hch⟩ := Option.isSome_iff_exists.mp (hknown id hid)
  simp [hch, passes_eq_all]

/-! ### Levels -/

variable {α : Type} {retry : Nat}

theorem sortedUniquePriorities_congr {ps qs : List Int} (h : ∀ p, p ∈ ps ↔ p ∈ qs) :
    sortedUniquePriorities ps = sortedUniquePriorities qs := by
  have hperm : ps.dedup.Perm qs.dedup :=
    (perm_ext_iff_of_nodup ps.nodup_dedup qs.nodup_dedup).mpr fun p => by
      rw [mem_dedup, mem_dedup, h]
  refine Perm.eq_of_pairwise ?_ (pairwise_insertionSort _ _) (pairwise_insertionSort _ _)
    (((perm_insertionSort _ _).trans hperm).trans (perm_insertionSort _ _).symm)
  intro a b _ _ hab hba
  exact le_antisymm hba hab

variable {priority : α → Int} {items : List α}

theorem levelOf_congr {β γ : Type} {priority' : β → Int} {items' : List β} {f : α → γ} {g : β → γ}
    (rank : γ → Int) (hrank : ∀ a ∈ items, rank (f a) = priority a)
    (hrank' : ∀ b ∈ items', rank (g b) = priority' b)
    (hsame : ∀ c, c ∈ items.map f ↔ c ∈ items'.map g) (retry : Nat) (c : γ) :
    c ∈ (levelOf priority items retry).map f ↔ c ∈ (levelOf priority' items' retry).map g := by
  have hpriorities : items.map priority = (items.map f).map rank := by
    rw [map_map]
    exact map_congr_left fun a ha => (hrank a ha).symm
  have hpriorities' : items'.map priority' = (items'.map g).map rank := by
    rw [map_map]
    exact map_congr_left fun b hb => (hrank' b hb).symm
  have hlevels : sortedUniquePriorities (items.map priority) =
    sortedUniquePriorities (items'.map priority') := by
    refine sortedUniquePriorities_congr fun p => ?_
    rw [hpriorities, hpriorities', mem_map, mem_map]
    exact exists_congr fun c => and_congr_left fun _ => hsame c
  unfold levelOf
  rw [hlevels]
  dsimp only
  cases (sortedUniquePriorities (items'.map priority'))[min retry
      ((sortedUniquePriorities (items'.map priority')).length - 1)]? with
  | none => rfl
  | some target =>
    have hleft : c ∈ (items.filter (priority · = target)).map f ↔ c ∈ items.map f ∧
      rank c = target := by
      simp only [mem_map, mem_filter, decide_eq_true_iff]
      constructor
      · rintro ⟨a, ⟨ha, hp⟩, rfl⟩
        exact ⟨⟨a, ha, rfl⟩, (hrank a ha).trans hp⟩
      · rintro ⟨⟨a, ha, rfl⟩, hp⟩
        exact ⟨a, ⟨ha, (hrank a ha).symm.trans hp⟩, rfl⟩
    have hright : c ∈ (items'.filter (priority' · = target)).map g ↔ c ∈ items'.map g ∧
      rank c = target := by
      simp only [mem_map, mem_filter, decide_eq_true_iff]
      constructor
      · rintro ⟨b, ⟨hb, hp⟩, rfl⟩
        exact ⟨⟨b, hb, rfl⟩, (hrank' b hb).trans hp⟩
      · rintro ⟨⟨b, hb, rfl⟩, hp⟩
        exact ⟨b, ⟨hb, (hrank' b hb).symm.trans hp⟩, rfl⟩
    rw [hleft, hright, hsame]

theorem sortedUniquePriorities_mem {ps : List Int} {p : Int} :
    p ∈ sortedUniquePriorities ps ↔ p ∈ ps := by
  rw [sortedUniquePriorities, (perm_insertionSort _ _).mem_iff, mem_dedup]

theorem levelOf_subset {a : α} (h : a ∈ levelOf priority items retry) : a ∈ items := by
  unfold levelOf at h
  dsimp only at h
  split at h
  · cases h
  exact mem_of_mem_filter h

theorem levelOf_eq_nil : levelOf priority items retry = [] ↔ items = [] := by
  constructor
  · intro h
    by_contra hitems
    obtain ⟨a, ha⟩ := exists_mem_of_ne_nil _ hitems
    have hpos : 0 < (sortedUniquePriorities (items.map priority)).length :=
      length_pos_of_mem (sortedUniquePriorities_mem.mpr (mem_map_of_mem ha))
    unfold levelOf at h
    dsimp only at h
    rw [getElem?_eq_getElem] at h
    have htarget := getElem_mem (l := sortedUniquePriorities (items.map priority))
      (n := min retry ((sortedUniquePriorities (items.map priority)).length - 1)) (by omega)
    obtain ⟨b, hb, hpriority⟩ := mem_map.mp (sortedUniquePriorities_mem.mp htarget)
    exact filter_eq_nil_iff.mp h b hb (by simpa using hpriority)
  · rintro rfl
    rfl

theorem levelOf_singleton (priority : α → Int) (a : α) (retry : Nat) :
    levelOf priority [a] retry = [a] := by
  have hone : sortedUniquePriorities [priority a] = [priority a] := by
    simp [sortedUniquePriorities]
  unfold levelOf
  simp [hone]

/-! ### Draws -/

variable {index : Index} {group model : String} {random : Nat} {channel : Channel}

theorem mapM_cachedChannel (hknown : ∀ id ∈ ids, (channelsIDM id).isSome = true) :
    ids.mapM (cachedChannel channelsIDM) = .ok (ids.filterMap channelsIDM) := by
  induction ids with
  | nil => rfl
  | cons id rest ih =>
    obtain ⟨channel, hchannel⟩ := Option.isSome_iff_exists.mp (hknown id mem_cons_self)
    rw [mapM_cons, cachedChannel, hchannel, ih fun other h => hknown other (mem_cons_of_mem _ h),
      filterMap_cons_some hchannel]
    rfl

/-- The channels of the cache mode, if all candidates are cached. -/
theorem cacheLevel_eq
    (hknown : ∀ id ∈ cacheCandidates routing index channelsIDM group model filters,
      (channelsIDM id).isSome = true) :
    cacheLevel routing index channelsIDM group model retry filters = .ok (levelOf getPriority
      ((cacheCandidates routing index channelsIDM group model filters).filterMap channelsIDM)
        retry) := by
  unfold cacheLevel
  rw [mapM_cachedChannel hknown]
  generalize (cacheCandidates routing index channelsIDM group model filters).filterMap channelsIDM =
    channels
  simp only [Except.bind, bind, pure, Except.pure]
  split_ifs with hone
  · obtain ⟨channel, rfl⟩ := length_eq_one_iff.mp hone
    rw [levelOf_singleton]
  · rfl

/-- Without a candidate nothing is selected, whatever the draw does. -/
theorem cacheSelect_none {drawFrom : List Channel → Except String Channel} :
    cacheSelect routing index channelsIDM group model retry filters drawFrom = .ok none ↔
      cacheCandidates routing index channelsIDM group model filters = [] := by
  unfold cacheSelect
  split
  · next h => simp [h]
  · next id h =>
    simp only [h]
    cases cachedChannel channelsIDM id <;> simp [Except.map]
  · next h _ =>
    refine iff_of_false (fun heq => ?_) h
    cases hlevel : cacheLevel routing index channelsIDM group model retry filters with
    | error e =>
      rw [hlevel] at heq
      cases heq
    | ok channels =>
      rw [hlevel] at heq
      simp only [bind, Except.bind] at heq
      cases hdrawn : drawFrom channels <;> rw [hdrawn] at heq <;> cases heq

theorem dbSelect_none {db : Database} {drawFrom : List Ability → Except String Ability} :
    dbSelect db (dbLevel routing db group model retry filters) drawFrom = .ok none ↔
      filterAbilitiesByConstraints routing db group model filters = [] := by
  have hlevel : dbLevel routing db group model retry filters = [] ↔
      filterAbilitiesByConstraints routing db group model filters = [] := levelOf_eq_nil
  rw [← hlevel]
  unfold dbSelect
  split
  · next h => simp [h]
  next h =>
  refine iff_of_false (fun heq => ?_) h
  simp only [bind, Except.bind] at heq
  split at heq
  · cases heq
  · split at heq <;> cases heq

theorem filterCandidates_subset {kinds : List FilterKind} {kept : List Int} {id : Int}
    (h : id ∈ (filterCandidates routing channelsIDM modelName filters kinds kept).1) :
    id ∈ kept := by
  induction kinds generalizing kept with
  | nil => exact h
  | cons kind rest ih =>
    rw [filterCandidates] at h
    dsimp only at h
    split_ifs at h
    · exact ih h
    · exact mem_of_mem_filter h
    · exact mem_of_mem_filter (ih h)

theorem cacheCandidates_listed {id : Int}
    (h : id ∈ cacheCandidates routing index channelsIDM group model filters) :
    ∃ name, id ∈ index.list group name := by
  have hids {ids : List Int} (hid : id ∈ (filterCandidateIDs routing channelsIDM ids model
    filters).1) :
      id ∈ ids := by
    unfold filterCandidateIDs at hid
    split_ifs at hid
    · exact hid
    · exact filterCandidates_subset routing hid
  unfold cacheCandidates at h
  dsimp only at h
  split_ifs at h
  · exact ⟨_, hids h⟩
  · exact ⟨_, hids h⟩

theorem drawChannel_mem {channels : List Channel} {random : Nat}
    (h : drawChannel channels random = .ok channel) : channel ∈ channels := by
  unfold drawChannel draw at h
  split at h
  · cases h
  · split at h
    · next hdrawn =>
      cases h
      exact drawFirst_mem hdrawn
    · cases h

theorem mapM_cachedChannel_mem {channels : List Channel}
    (h : ids.mapM (cachedChannel channelsIDM) = .ok channels) (hmem : channel ∈ channels) :
    ∃ id ∈ ids, channelsIDM id = some channel := by
  induction ids generalizing channels with
  | nil =>
    cases h
    cases hmem
  | cons id rest ih =>
    rw [mapM_cons] at h
    cases hid : channelsIDM id with
    | none =>
      rw [cachedChannel, hid] at h
      cases h
    | some first =>
      rw [cachedChannel, hid] at h
      cases hrest : rest.mapM (cachedChannel channelsIDM) with
      | error e =>
        rw [hrest] at h
        cases h
      | ok others =>
        rw [hrest] at h
        cases h
        rcases mem_cons.mp hmem with rfl | hmem
        · exact ⟨id, mem_cons_self, hid⟩
        · obtain ⟨other, hother, hget⟩ := ih hrest hmem
          exact ⟨other, mem_cons_of_mem _ hother, hget⟩

/-- A channel that is selected stands in a list of the index. -/
theorem cacheSelect_listed {drawFrom : List Channel → Except String Channel}
    (hdraw : ∀ channels channel, drawFrom channels = .ok channel → channel ∈ channels)
    (h : cacheSelect routing index channelsIDM group model retry filters drawFrom =
      .ok (some channel)) :
    ∃ id name, id ∈ index.list group name ∧ channelsIDM id = some channel := by
  suffices hcandidate : ∃ id ∈ cacheCandidates routing index channelsIDM group model filters,
      channelsIDM id = some channel by
    obtain ⟨id, hid, hget⟩ := hcandidate
    obtain ⟨name, hname⟩ := cacheCandidates_listed routing hid
    exact ⟨id, name, hname, hget⟩
  unfold cacheSelect at h
  split at h
  · cases h
  · next id hone =>
    rw [hone]
    unfold cachedChannel at h
    cases hget : channelsIDM id with
    | none =>
      rw [hget] at h
      cases h
    | some found =>
      rw [hget] at h
      cases h
      exact ⟨id, mem_singleton_self id, hget⟩
  · unfold cacheLevel at h
    cases hall : (cacheCandidates routing index channelsIDM group model filters).mapM
      (cachedChannel channelsIDM) with
    | error e =>
      rw [hall] at h
      cases h
    | ok channels =>
      rw [hall] at h
      simp only [bind, Except.bind, pure, Except.pure] at h
      refine mapM_cachedChannel_mem hall ?_
      split_ifs at h with hone
      · dsimp only at h
        split at h
        · cases h
        · next hdrawn =>
          cases h
          exact hdraw _ _ hdrawn
      · dsimp only at h
        split at h
        · cases h
        · next hdrawn =>
          cases h
          exact levelOf_subset (hdraw _ _ hdrawn)

theorem getRandomSatisfiedChannel_listed
    (h : getRandomSatisfiedChannel routing index channelsIDM group model retry filters random =
      .ok (some channel)) :
    ∃ id name, id ∈ index.list group name ∧ channelsIDM id = some channel :=
  cacheSelect_listed routing (fun _ _ => drawChannel_mem) h

/-! ### Ability rows -/

theorem Channel.keepPairs_subset {pairs : List (String × String)} {abilitySet : List String}
    {pair : String × String} (h : pair ∈ keepPairs pairs abilitySet) : pair ∈ pairs := by
  induction pairs generalizing abilitySet with
  | nil => cases h
  | cons first rest ih =>
    rw [keepPairs] at h
    split_ifs at h
    · exact mem_cons_of_mem _ (ih h)
    · rcases mem_cons.mp h with rfl | hrest
      · exact mem_cons_self
      · exact mem_cons_of_mem _ (ih hrest)

/-- The pairs of a channel are made of its models and groups. -/
theorem mem_abilityPairs (h : (model, group) ∈ channel.abilityPairs) :
    model ∈ channel.getRoutingModels ∧ group ∈ channel.groups := by
  have hpair := keepPairs_subset h
  simpa using hpair

/-! ### Both modes -/

section Modes

variable {routing} {sorter : SortSlice} {db : Database} {index : Index} {group model : String}

/-- The ability rows are those that `AddAbilities` writes for the channels. -/
def AbilitiesWritten (db : Database) : Prop :=
  ∀ ability, ability ∈ db.abilities ↔ ∃ channel ∈ db.channels.rows, ability ∈ channel.addAbilities

variable {id : Int}

theorem mem_index_list (hindex : initIndex sorter db = some index) :
    id ∈ index.list group model ↔ ∃ channel, db.channels.get? id = some channel ∧
      channel.Serves group model := by
  rw [(initIndex_list hindex group model).1.mem_iff, mem_entered]
  constructor
  · rintro ⟨channel, hmem, rfl, hserves⟩
    exact ⟨channel, Table.mem_rows.mp hmem, hserves⟩
  · rintro ⟨channel, hget, hserves⟩
    exact ⟨channel, Table.mem_of_get? hget, Table.key_of_get? hget, hserves⟩

variable {filters : List ChannelFilter}

/-- A channel of the database is a candidate for a name of the index. -/
theorem mem_candidates (hindex : initIndex sorter db = some index) {name : String} :
    id ∈ (filterCandidateIDs routing db.channels.get? (index.list group name) model filters).1 ↔
      ∃ channel, db.channels.get? id = some channel ∧ channel.Serves group name ∧
        passes routing channel model filters = true := by
  have hknown : ∀ id ∈ index.list group name, (db.channels.get? id).isSome = true := by
    intro id hid
    obtain ⟨channel, hget, -⟩ := (mem_index_list hindex).mp hid
    rw [hget]
    rfl
  rw [mem_filterCandidateIDs routing hknown, mem_index_list hindex]
  constructor
  · rintro ⟨⟨channel, hget, hserves⟩, other, hother, hpasses⟩
    rw [hget] at hother
    cases hother
    exact ⟨channel, hget, hserves, hpasses⟩
  · rintro ⟨channel, hget, hserves, hpasses⟩
    exact ⟨⟨channel, hget, hserves⟩, channel, hget, hpasses⟩

theorem mem_filterAbilities (hwritten : AbilitiesWritten db) {ability : Ability} :
    ability ∈ filterAbilitiesByConstraints routing db group model filters ↔
      ∃ channel, db.channels.get? channel.id = some channel ∧ channel.status = .enabled ∧
        (model, group) ∈ channel.abilityPairs ∧ ability = channel.ability model group ∧
        passes routing channel model filters = true := by
  rw [filterAbilitiesByConstraints, mem_filter, hwritten]
  simp only [addAbilities, mem_map, decide_eq_true_iff]
  constructor
  · rintro ⟨⟨channel, hmem, pair, hpair, rfl⟩, rfl, rfl, henabled, hpasses⟩
    have hget := Table.mem_rows.mp hmem
    refine ⟨channel, hget, by simpa [ability] using henabled, hpair, rfl, ?_⟩
    rw [← channelSatisfiesFilters_some, ← hget]
    exact hpasses
  · rintro ⟨channel, hget, henabled, hpair, rfl, hpasses⟩
    refine ⟨⟨channel, Table.mem_rows.mpr hget, _, hpair, rfl⟩, rfl, rfl,
      by simp [ability, henabled], ?_⟩
    rw [← channelSatisfiesFilters_some, ← hget] at hpasses
    exact hpasses

/-- The modes agree on the channels of a pair: no ability row is lost, and a channel that lists the
    normalized name lists the name. -/
def ModesAgree (routing : Routing) (db : Database) (group model : String) : Prop :=
  ∀ channel ∈ db.channels.rows, seedanceEnhanceChannelAvailable routing channel model = true →
    (channel.Serves group model → (model, group) ∈ channel.abilityPairs) ∧
    (channel.Serves group (routing.routingMatchModelName model) → channel.Serves group model)

theorem mem_cacheCandidates (hindex : initIndex sorter db = some index)
    (hagree : ModesAgree routing db group model) :
    id ∈ cacheCandidates routing index db.channels.get? group model filters ↔
      ∃ channel, db.channels.get? id = some channel ∧ channel.Serves group model ∧
        passes routing channel model filters = true := by
  unfold cacheCandidates
  dsimp only
  split_ifs with hnil
  · -- the normalized name offers nothing that the name does not
    have hnone : ¬ ∃ channel, db.channels.get? id = some channel ∧ channel.Serves group model ∧
        passes routing channel model filters = true := fun h => by
      have hmem := (mem_candidates hindex).mpr h
      rw [hnil] at hmem
      cases hmem
    refine iff_of_false (fun hmem => hnone ?_) hnone
    obtain ⟨channel, hget, hserves, hpasses⟩ := (mem_candidates hindex).mp hmem
    have havailable : seedanceEnhanceChannelAvailable routing channel model = true :=
      (Bool.and_eq_true _ _ ▸ hpasses : _ ∧ _).1
    exact ⟨channel, hget, (hagree channel (Table.mem_of_get? hget) havailable).2 hserves, hpasses⟩
  · exact mem_candidates hindex

/-- The rows of the database mode name the channels that serve the pair and pass. -/
theorem mem_map_filterAbilities (hwritten : AbilitiesWritten db)
    (hagree : ModesAgree routing db group model) :
    some channel ∈ (filterAbilitiesByConstraints routing db group model filters).map
        (fun ability => db.channels.get? ability.channelId) ↔
      db.channels.get? channel.id = some channel ∧ channel.Serves group model ∧
        passes routing channel model filters = true := by
  rw [mem_map]
  constructor
  · rintro ⟨ability, hability, hget⟩
    obtain ⟨other, hother, henabled, hpair, rfl, hpasses⟩ :=
      (mem_filterAbilities hwritten).mp hability
    rw [ability, hother] at hget
    cases hget
    exact ⟨hother, ⟨henabled, (mem_abilityPairs hpair).2, (mem_abilityPairs hpair).1⟩, hpasses⟩
  · rintro ⟨hget, hserves, hpasses⟩
    have havailable : seedanceEnhanceChannelAvailable routing channel model = true :=
      (Bool.and_eq_true _ _ ▸ hpasses : _ ∧ _).1
    have hpair := (hagree channel (Table.mem_of_get? hget) havailable).1 hserves
    exact ⟨_, (mem_filterAbilities hwritten).mpr ⟨channel, hget, hserves.1, hpair, rfl, hpasses⟩,
      hget⟩

theorem same_candidates (hwritten : AbilitiesWritten db) (hindex : initIndex sorter db = some index)
    (hagree : ModesAgree routing db group model) (filters : List ChannelFilter)
    (c : Option Channel) :
    c ∈ ((cacheCandidates routing index db.channels.get? group model filters).filterMap
      db.channels.get?).map some ↔
      c ∈ (filterAbilitiesByConstraints routing db group model filters).map
        (fun ability => db.channels.get? ability.channelId) := by
  cases c with
  | none =>
    refine iff_of_false (by simp) fun hmem => ?_
    obtain ⟨ability, hability, hget⟩ := mem_map.mp hmem
    obtain ⟨channel, hchannel, -, -, rfl, -⟩ := (mem_filterAbilities hwritten).mp hability
    rw [ability, hchannel] at hget
    cases hget
  | some channel =>
    rw [mem_map_filterAbilities hwritten hagree, mem_map_of_injective (Option.some_injective _),
      mem_filterMap]
    constructor
    · rintro ⟨id, hid, hget⟩
      obtain ⟨other, hother, hserves, hpasses⟩ := (mem_cacheCandidates hindex hagree).mp hid
      rw [hget] at hother
      cases hother
      exact ⟨Table.key_of_get? hget ▸ hget, hserves, hpasses⟩
    · rintro ⟨hget, hserves, hpasses⟩
      exact ⟨channel.id, (mem_cacheCandidates hindex hagree).mpr ⟨channel, hget, hserves, hpasses⟩,
        hget⟩

/-- The filter that lets one channel pass. -/
def onlyChannel (id : Int) : List ChannelFilter :=
  [{ kind := .personalAuthorization, allowedChannelIDs := [id] }]

theorem passes_onlyChannel :
    passes routing channel model (onlyChannel id) = true ↔
      seedanceEnhanceChannelAvailable routing channel model = true ∧ channel.id = id := by
  simp [passes, onlyChannel, filterEvalOrder, filtersByKind, channelMatchesFilter]

/-- **Both modes** offer the same channels, for every retry and every list of filters, if and only
    if no row of a channel for the pair is lost and the normalized name brings in no further
    channel. -/
theorem selection_agrees_iff (hwritten : AbilitiesWritten db)
    (hindex : initIndex sorter db = some index) :
    (∀ retry filters,
      (∃ channels, cacheLevel routing index db.channels.get? group model retry filters =
        .ok channels ∧
        ∀ channel, channel ∈ channels ↔ some channel ∈
          (dbLevel routing db group model retry filters).map
          fun ability => db.channels.get? ability.channelId) ∧
      ∀ random random',
        getRandomSatisfiedChannel routing index db.channels.get? group model retry filters random =
          .ok none ↔ getChannel routing db group model retry filters random' = .ok none) ↔
      ModesAgree routing db group model := by
  constructor
  · intro h channel hmem havailable
    have hget := Table.mem_rows.mp hmem
    have hpasses : passes routing channel model (onlyChannel channel.id) = true :=
      passes_onlyChannel.mpr ⟨havailable, rfl⟩
    -- with the filter for this channel, a candidate of the cache means a row of the database
    have hrow (hcandidate : cacheCandidates routing index db.channels.get? group model
        (onlyChannel channel.id) ≠ []) : channel.status = .enabled ∧
          (model, group) ∈ channel.abilityPairs := by
      have hsome : filterAbilitiesByConstraints routing db group model (onlyChannel channel.id) ≠
        [] :=
        fun hnil => hcandidate (cacheSelect_none routing |>.mp
          (((h 0 (onlyChannel channel.id)).2 0 0).mpr (dbSelect_none routing |>.mpr hnil)))
      obtain ⟨ability, hability⟩ := exists_mem_of_ne_nil _ hsome
      obtain ⟨other, hother, henabled, hpair, -, hpassed⟩ :=
        (mem_filterAbilities hwritten).mp hability
      rw [(passes_onlyChannel.mp hpassed).2, hget] at hother
      cases hother
      exact ⟨henabled, hpair⟩
    have hlisted {name : String} (hserves : channel.Serves group name) :
        channel.id ∈ (filterCandidateIDs routing db.channels.get? (index.list group name) model
          (onlyChannel channel.id)).1 := (mem_candidates hindex).mpr ⟨channel, hget, hserves,
            hpasses⟩
    constructor
    · intro hserves
      refine (hrow fun hnil => ?_).2
      unfold cacheCandidates at hnil
      dsimp only at hnil
      split_ifs at hnil with hexact
      · exact absurd (hlisted hserves) (hexact ▸ not_mem_nil)
      · exact hexact hnil
    · intro hserves
      obtain ⟨henabled, hpair⟩ := hrow fun hnil => by
        unfold cacheCandidates at hnil
        dsimp only at hnil
        split_ifs at hnil with hexact
        · exact absurd (hlisted hserves) (hnil ▸ not_mem_nil)
        · exact hexact hnil
      exact ⟨henabled, (mem_abilityPairs hpair).2, (mem_abilityPairs hpair).1⟩
  · intro hagree retry filters
    have hknown : ∀ id ∈ cacheCandidates routing index db.channels.get? group model filters,
        (db.channels.get? id).isSome = true := fun id hid => by
      obtain ⟨channel, hget, -⟩ := (mem_cacheCandidates hindex hagree).mp hid
      rw [hget]
      rfl
    have hsame := same_candidates hwritten hindex hagree filters
    have hrank : ∀ ability ∈ filterAbilitiesByConstraints routing db group model filters,
        ((db.channels.get? ability.channelId).map getPriority).getD 0 =
          ability.priority.getD 0 := by
      intro ability hability
      obtain ⟨other, hother, -, -, rfl, -⟩ := (mem_filterAbilities hwritten).mp hability
      simp only [ability, hother]
      rfl
    refine ⟨⟨_, cacheLevel_eq routing hknown, fun channel => ?_⟩, fun random random' => ?_⟩
    · have hlevel := levelOf_congr (fun c : Option Channel => (c.map getPriority).getD 0)
        (fun _ _ => rfl) hrank hsame retry (some channel)
      rwa [mem_map_of_injective (Option.some_injective _)] at hlevel
    · rw [getRandomSatisfiedChannel, getChannel, cacheSelect_none, dbSelect_none]
      constructor
      · intro hnone
        refine eq_nil_iff_forall_not_mem.mpr fun ability hability => ?_
        have hmem := (hsame _).mpr (mem_map_of_mem hability)
        rw [hnone] at hmem
        cases hmem
      · intro hnone
        refine eq_nil_iff_forall_not_mem.mpr fun id hid => ?_
        obtain ⟨channel, hget⟩ := Option.isSome_iff_exists.mp (hknown id hid)
        have hmem := (hsame (some channel)).mp (mem_map_of_mem (mem_filterMap.mpr ⟨id, hid, hget⟩))
        rw [hnone] at hmem
        cases hmem

end Modes

/-! ### Databases on which the modes differ -/

/-- A routing in which the names of one family have a common normalized name. -/
def gizmoRouting : Routing where
  routingMatchModelName name := if "gpt-4-gizmo".toList <+: name.toList then "gpt-4-gizmo-*"
    else name
  seedanceEnhanceModelAvailable _ := true
  matchesPathForModel _ _ _ := true

/-- A database with some channels and the rows that `AddAbilities` writes for them. -/
def databaseOf (channels : List Channel) : Database :=
  ⟨Table.ofList _ channels, channels.flatMap Channel.addAbilities⟩

theorem databaseOf_written {channels : List Channel}
    (h : (databaseOf channels).channels.rows = channels) :
    AbilitiesWritten (databaseOf channels) := by
  intro ability
  rw [h]
  exact mem_flatMap

/-- The ids that both modes return. -/
def bothModes (channel : Channel) (group model : String) :
    Option (Option (Option Int) × Option (Option Int)) :=
  let db := databaseOf [channel]
  (initIndex insertionSorter db).map fun index =>
    ((getRandomSatisfiedChannel gizmoRouting index db.channels.get? group model 0 [] 0).toOption.map
        (·.map Channel.id),
      (getChannel gizmoRouting db group model 0 [] 0).toOption.map (·.map Channel.id))

/-- Two channels that share a model, at two levels of priority, and one that is disabled. -/
def sharedModel : Database :=
  databaseOf [{ id := 1, models := "a,b" }, { id := 2, models := "b,c", priority := some 5 },
    { id := 3, models := "b", status := .manuallyDisabled }]

theorem selection_agrees_on_sharedModel :
    ∃ index, initIndex insertionSorter sharedModel = some index ∧ ∀ retry filters,
      (∃ channels,
        cacheLevel gizmoRouting index sharedModel.channels.get? "default" "b" retry filters =
          .ok channels ∧
        ∀ channel, channel ∈ channels ↔
          some channel ∈ (dbLevel gizmoRouting sharedModel "default" "b" retry filters).map
            fun ability => sharedModel.channels.get? ability.channelId) ∧
      ∀ random random',
        getRandomSatisfiedChannel gizmoRouting index sharedModel.channels.get? "default" "b" retry
            filters random = .ok none ↔
          getChannel gizmoRouting sharedModel "default" "b" retry filters random' = .ok none := by
  obtain ⟨index, hindex⟩ :=
    (initIndex_eq_some_iff insertionSorter sharedModel).mpr (by unfold Mapped; decide)
  refine ⟨index, hindex, (selection_agrees_iff (databaseOf_written rfl) hindex).mpr ?_⟩
  unfold ModesAgree
  decide

/-- A name of a family is found by the cache only, and so is a pair whose key `group|model` is the
    key of another pair. -/
theorem selection_differs :
    bothModes { id := 1, models := "gpt-4-gizmo-*" } "default" "gpt-4-gizmo-x" =
      some (some (some 1), some none) ∧
    bothModes { id := 1, models := "b|c,c", group := "a,a|b" } "a|b" "c" =
      some (some (some 1), some none) := by
  decide

end TokenGateway.Channels
