import Mathlib.Data.List.Count
import Mathlib.Data.List.Nodup
import Mathlib.Data.List.Sort
import TokenGateway.Channels.Channel

namespace TokenGateway.Channels

open Base Function List

/-!
# The routing index

`model/channel_cache.go` (`InitChannelCache`).  The outer maps are made from the groups of the
ability rows, their entries from the channels: writing an entry of a group without ability rows
fails at run time.

* `initIndex` — the index, or nothing after the failure;
* `initIndex_eq_some_iff` — when there is one, and its lists;
* `ExactIndex` — every list holds each channel that serves its pair once;
* `initIndex_exact_iff` — when that holds.
-/

/-! ### Construction -/

/-- `group2model2channels`; a group without a map has no value. -/
abbrev Index := String → Option (String → List Int)

/-- The list for a group and a model. -/
def Index.list (index : Index) (group model : String) : List Int :=
  ((index group).map fun models => models model).getD []

/-- `sort.Slice` by descending priority.  It is not stable, so equal priorities may come in any
    order. -/
structure SortSlice where
  sort : (Int → Int) → List Int → List Int
  perm : ∀ priority ids, (sort priority ids).Perm ids
  sorted : ∀ priority ids, (sort priority ids).Pairwise fun a b => priority b ≤ priority a

/-- `newGroup2model2channels[group][model] = append(…)`. -/
def addEntry (id : Int) (index : Index) (entry : String × String) : Option Index :=
  (index entry.1).map fun models =>
    update index entry.1 (some (update models entry.2 (models entry.2 ++ [id])))

/-- The pairs of a group and a model that a channel is entered for. -/
def Channel.entries (channel : Channel) : List (String × String) :=
  if channel.status = .enabled then
    channel.groups.flatMap fun group => channel.getRoutingModels.map (group, ·)
  else []

variable (abilities : List Ability)

/-- The maps before any channel is entered. -/
def emptyIndex : Index := fun group =>
  if group ∈ abilities.map Ability.group then some fun _ => [] else none

def fillIndex (channels : List Channel) (index : Index) : Option Index :=
  channels.foldlM (fun index channel => channel.entries.foldlM (addEntry channel.id) index) index

def priorityOf (channels : ChannelTable) (id : Int) : Int :=
  ((channels.get? id).map Channel.getPriority).getD 0

variable (sorter : SortSlice)

/-- Every list sorted by priority. -/
def sortIndex (channels : ChannelTable) (index : Index) : Index := fun group =>
  (index group).map fun models model => sorter.sort (priorityOf channels) (models model)

/-- The index of `InitChannelCache`. -/
def initIndex (db : Database) : Option Index :=
  (fillIndex db.channels.rows (emptyIndex db.abilities)).map (sortIndex sorter db.channels)

/-! ### What is entered -/

variable {index : Index} {channel : Channel} {channels : List Channel}

@[simp]
theorem emptyIndex_list (group model : String) : (emptyIndex abilities).list group model = [] := by
  unfold Index.list emptyIndex
  split_ifs <;> rfl

theorem emptyIndex_isSome {abilities : List Ability} {group : String} :
    (emptyIndex abilities group).isSome = true ↔ ∃ ability ∈ abilities, ability.group = group := by
  simp [emptyIndex]

/-- The lists of an index after more ids have been entered; the maps are the same ones. -/
structure Extended (index index' : Index) (more : String → String → List Int) : Prop where
  maps : ∀ group, (index' group).isSome = (index group).isSome
  lists : ∀ group model, index'.list group model = index.list group model ++ more group model

theorem Extended.trans {index' index'' : Index} {more more' : String → String → List Int}
    (h : Extended index index' more) (h' : Extended index' index'' more') :
    Extended index index'' fun group model => more group model ++ more' group model where
  maps group := (h'.maps group).trans (h.maps group)
  lists group model := by rw [h'.lists, h.lists, append_assoc]

theorem Extended.refl (index : Index) : Extended index index fun _ _ => [] where
  maps _ := rfl
  lists _ _ := (append_nil _).symm

theorem addEntry_extended {entry : String × String} (id : Int) (h : (index entry.1).isSome = true) :
    ∃ index', addEntry id index entry = some index' ∧
      Extended index index' fun group model => replicate (count (group, model) [entry]) id := by
  obtain ⟨models, hmodels⟩ := Option.isSome_iff_exists.mp h
  refine ⟨update index entry.1 (some (update models entry.2 (models entry.2 ++ [id]))),
    by rw [addEntry, hmodels]; rfl, fun group => ?_, fun group model => ?_⟩
  · by_cases hgroup : group = entry.1
    · rw [hgroup, update_self, hmodels]
      rfl
    · rw [update_of_ne hgroup]
  · unfold Index.list
    by_cases hgroup : group = entry.1
    · subst hgroup
      rw [hmodels]
      by_cases hmodel : model = entry.2
      · subst hmodel
        simp
      · have hne : ¬ entry = (entry.1, model) := fun heq => hmodel (congrArg Prod.snd heq).symm
        simp [update_of_ne hmodel, hne]
    · have hne : ¬ entry = (group, model) := fun heq => hgroup (congrArg Prod.fst heq).symm
      simp [update_of_ne hgroup, hne]

theorem foldlM_addEntry_extended (id : Int) {entries : List (String × String)}
    (h : ∀ entry ∈ entries, (index entry.1).isSome = true) :
    ∃ index', entries.foldlM (addEntry id) index = some index' ∧
      Extended index index' fun group model => replicate (entries.count (group, model)) id := by
  induction entries generalizing index with
  | nil => exact ⟨index, rfl, .refl index⟩
  | cons entry rest ih =>
    obtain ⟨index₁, hadd, hfirst⟩ := addEntry_extended id (h entry mem_cons_self)
    obtain ⟨index₂, hrest, hmore⟩ := ih fun other hother =>
      (hfirst.maps other.1).trans (h other (mem_cons_of_mem _ hother))
    refine ⟨index₂, by rw [foldlM_cons, hadd]; exact hrest, ?_⟩
    have hboth := hfirst.trans hmore
    refine ⟨hboth.maps, fun group model => ?_⟩
    rw [hboth.lists, ← replicate_add, ← count_append]
    rfl

theorem foldlM_addEntry_none (id : Int) {entries : List (String × String)}
    (h : ∃ entry ∈ entries, (index entry.1).isSome = false) :
    entries.foldlM (addEntry id) index = none := by
  induction entries generalizing index with
  | nil => simp at h
  | cons entry rest ih =>
    rw [foldlM_cons]
    by_cases hentry : (index entry.1).isSome = true
    · obtain ⟨index', hadd, hmore⟩ := addEntry_extended id hentry
      rw [hadd]
      refine ih ?_
      obtain ⟨other, hmem, hnone⟩ := h
      rcases mem_cons.mp hmem with rfl | hrest
      · rw [hentry] at hnone
        cases hnone
      · exact ⟨other, hrest, (hmore.maps _).trans hnone⟩
    · rw [addEntry, Option.not_isSome_iff_eq_none.mp hentry]
      rfl

theorem mem_entries {entry : String × String} :
    entry ∈ channel.entries ↔ channel.Serves entry.1 entry.2 := by
  unfold Channel.entries Channel.Serves
  split_ifs with henabled
  · obtain ⟨group, model⟩ := entry
    simp [henabled]
  · simp [henabled]

theorem count_entries (channel : Channel) (group model : String) :
    channel.entries.count (group, model) = if channel.status = .enabled then
      channel.groups.count group * channel.getRoutingModels.count model else 0 := by
  unfold Channel.entries
  split_ifs with henabled
  · induction channel.groups with
    | nil => simp
    | cons first rest ih =>
      have hfirst : (channel.getRoutingModels.map (first, ·)).count (group, model) =
          if first = group then channel.getRoutingModels.count model else 0 := by
        split_ifs with heq
        · subst heq
          exact count_map_of_injective _ _ (Prod.mk_right_injective first) model
        · refine count_eq_zero.mpr fun hmem => heq ?_
          obtain ⟨_, -, hpair⟩ := mem_map.mp hmem
          exact congrArg Prod.fst hpair
      rw [flatMap_cons, count_append, hfirst, ih, count_cons]
      by_cases heq : first = group
      · simp [Nat.add_mul, Nat.add_comm]
      · simp [heq]
  · rfl

/-- The ids that the channels put into a list. -/
def entered (channels : List Channel) (group model : String) : List Int :=
  channels.flatMap fun channel => replicate (channel.entries.count (group, model)) channel.id

/-- Every group of an entry has a map. -/
def Mapped (channels : List Channel) (index : Index) : Prop :=
  ∀ channel ∈ channels, ∀ entry ∈ channel.entries, (index entry.1).isSome = true

theorem fillIndex_extended (h : Mapped channels index) :
    ∃ index', fillIndex channels index = some index' ∧
      Extended index index' (entered channels) := by
  induction channels generalizing index with
  | nil => exact ⟨index, rfl, .refl index⟩
  | cons channel rest ih =>
    obtain ⟨index₁, hadd, hfirst⟩ := foldlM_addEntry_extended channel.id (h channel mem_cons_self)
    have hmapped : Mapped rest index₁ := fun other hother entry hentry =>
      (hfirst.maps entry.1).trans (h other (mem_cons_of_mem _ hother) entry hentry)
    obtain ⟨index₂, hrest, hmore⟩ := ih hmapped
    exact ⟨index₂, by rw [fillIndex, foldlM_cons, hadd]; exact hrest, hfirst.trans hmore⟩

theorem fillIndex_none (h : ¬ Mapped channels index) : fillIndex channels index = none := by
  induction channels generalizing index with
  | nil => exact absurd (fun _ hmem => absurd hmem not_mem_nil) h
  | cons channel rest ih =>
    rw [fillIndex, foldlM_cons]
    by_cases hchannel : ∀ entry ∈ channel.entries, (index entry.1).isSome = true
    · obtain ⟨index', hadd, hmore⟩ := foldlM_addEntry_extended channel.id hchannel
      rw [hadd]
      refine ih fun hrest => h fun other hother entry hentry => ?_
      rcases mem_cons.mp hother with rfl | hother
      · exact hchannel entry hentry
      · exact (hmore.maps _).symm.trans (hrest other hother entry hentry)
    · push Not at hchannel
      obtain ⟨entry, hentry, hnone⟩ := hchannel
      rw [foldlM_addEntry_none channel.id ⟨entry, hentry, by simpa using hnone⟩]
      rfl

/-! ### Exactness -/

/-- A list is entered by the channels that serve its pair. -/
theorem mem_entered {group model : String} {id : Int} :
    id ∈ entered channels group model ↔ ∃ channel ∈ channels, channel.id = id ∧
      channel.Serves group model := by
  have hcount (channel : Channel) : 0 < channel.entries.count (group, model) ↔
    channel.Serves group model :=
    count_pos_iff.trans mem_entries
  simp only [entered, mem_flatMap, mem_replicate]
  constructor
  · rintro ⟨channel, hmem, hne, rfl⟩
    exact ⟨channel, hmem, rfl, (hcount channel).mp (Nat.pos_of_ne_zero hne)⟩
  · rintro ⟨channel, hmem, rfl, hserves⟩
    exact ⟨channel, hmem, ((hcount channel).mpr hserves).ne', rfl⟩

/-- A channel stands in a list as often as it is entered, since no other one has its id. -/
theorem count_entered (hids : (channels.map Channel.id).Nodup) (hmem : channel ∈ channels)
    (group model : String) :
    (entered channels group model).count channel.id = channel.entries.count (group, model) := by
  induction channels with
  | nil => cases hmem
  | cons first rest ih =>
    rw [map_cons, nodup_cons] at hids
    rw [entered, flatMap_cons, count_append]
    rcases mem_cons.mp hmem with rfl | hrest
    · have hnone : (entered rest group model).count channel.id = 0 := by
        refine count_eq_zero.mpr fun hin => hids.1 ?_
        obtain ⟨other, hother, heq, -⟩ := mem_entered.mp hin
        exact heq ▸ mem_map_of_mem hother
      rw [count_replicate_self]
      exact Nat.add_eq_left.mpr hnone
    · have hne : first.id ≠ channel.id := fun heq => hids.1 (heq ▸ mem_map_of_mem hrest)
      rw [count_replicate, if_neg (by simpa using hne), Nat.zero_add]
      exact ih hids.2 hrest

/-- Every list holds each channel that serves its pair once, no other id, and in the order of
    priorities. -/
structure ExactIndex (db : Database) (index : Index) : Prop where
  once : ∀ channel ∈ db.channels.rows, ∀ group model, channel.Serves group model →
    (index.list group model).count channel.id = 1
  only : ∀ group model, ∀ id ∈ index.list group model,
    ∃ channel ∈ db.channels.rows, channel.id = id ∧ channel.Serves group model
  sorted : ∀ group model, (index.list group model).Pairwise fun a b =>
    priorityOf db.channels b ≤ priorityOf db.channels a

theorem sortIndex_list (channels : ChannelTable) (index : Index) (group model : String) :
    ((sortIndex sorter channels index).list group model).Perm (index.list group model) ∧
      ((sortIndex sorter channels index).list group model).Pairwise fun a b =>
        priorityOf channels b ≤ priorityOf channels a := by
  unfold Index.list sortIndex
  cases index group with
  | none => exact ⟨.refl _, .nil⟩
  | some models => exact ⟨sorter.perm _ _, sorter.sorted _ _⟩

/-- **Construction.**  There is an index if every group that a channel is entered for has a map; its
    lists are what the channels enter, sorted. -/
theorem initIndex_eq_some_iff (db : Database) :
    (∃ index, initIndex sorter db = some index) ↔
      Mapped db.channels.rows (emptyIndex db.abilities) := by
  constructor
  · rintro ⟨index, hindex⟩
    by_contra hmapped
    rw [initIndex, fillIndex_none hmapped] at hindex
    cases hindex
  · intro hmapped
    obtain ⟨index, hfill, -⟩ := fillIndex_extended hmapped
    exact ⟨_, by rw [initIndex, hfill]; rfl⟩

theorem initIndex_list {sorter : SortSlice} {db : Database} (h : initIndex sorter db = some index)
    (group model : String) :
    (index.list group model).Perm (entered db.channels.rows group model) ∧
      (index.list group model).Pairwise fun a b =>
        priorityOf db.channels b ≤ priorityOf db.channels a := by
  have hmapped := (initIndex_eq_some_iff sorter db).mp ⟨index, h⟩
  obtain ⟨filled, hfill, hmore⟩ := fillIndex_extended hmapped
  rw [initIndex, hfill] at h
  cases h
  have hsorted := sortIndex_list sorter db.channels filled group model
  rw [hmore.lists, emptyIndex_list] at hsorted
  exact hsorted

/-- A channel that is entered somewhere names each group and each model once, and its groups have
    ability rows. -/
def Channel.EntersOnce (channel : Channel) : Prop :=
  channel.status = .enabled → channel.getRoutingModels ≠ [] →
    channel.groups.Nodup ∧ channel.getRoutingModels.Nodup ∧
      ∀ group ∈ channel.groups, ∃ ability ∈ abilities, ability.group = group

theorem splitChars_ne_nil (sep : Char) (s : List Char) : splitChars sep s ≠ [] := by
  cases s with
  | nil => exact cons_ne_nil _ _
  | cons c rest =>
    rw [splitChars]
    split_ifs
    · exact cons_ne_nil _ _
    · split <;> exact cons_ne_nil _ _

theorem Channel.groups_ne_nil (channel : Channel) : channel.groups ≠ [] := fun h =>
  splitChars_ne_nil ',' channel.group.toList (map_eq_nil_iff.mp h)

/-- Each pair is entered once when groups and models are listed once. -/
theorem entries_once_iff (henabled : channel.status = .enabled)
    (hmodels : channel.getRoutingModels ≠ []) :
    (∀ group model, channel.Serves group model → channel.entries.count (group, model) = 1) ↔
      channel.groups.Nodup ∧ channel.getRoutingModels.Nodup := by
  simp only [count_entries, if_pos henabled, nodup_iff_count_eq_one]
  constructor
  · intro h
    obtain ⟨someGroup, hgroup⟩ := exists_mem_of_ne_nil _ channel.groups_ne_nil
    obtain ⟨someModel, hmodel⟩ := exists_mem_of_ne_nil _ hmodels
    exact ⟨fun group hmem => Nat.eq_one_of_mul_eq_one_right
      (h group someModel ⟨henabled, hmem, hmodel⟩),
      fun model hmem => Nat.eq_one_of_mul_eq_one_left (h someGroup model ⟨henabled, hgroup, hmem⟩)⟩
  · rintro ⟨hgroups, hnames⟩ group model ⟨-, hgroup, hmodel⟩
    rw [hgroups group hgroup, hnames model hmodel]

/-- **The routing index** is constructed and exact for the databases in which every channel that is
    entered names its groups and models once and has ability rows for its groups, and for no other
    ones. -/
theorem initIndex_exact_iff (sorter : SortSlice) (db : Database) :
    (∃ index, initIndex sorter db = some index ∧ ExactIndex db index) ↔
      ∀ channel ∈ db.channels.rows, channel.EntersOnce db.abilities := by
  have hcount {index : Index} (hindex : initIndex sorter db = some index) {channel : Channel}
      (hmem : channel ∈ db.channels.rows) (group model : String) :
      (index.list group model).count channel.id = channel.entries.count (group, model) :=
    ((initIndex_list hindex group model).1.count_eq _).trans
      (count_entered db.channels.nodup hmem group model)
  constructor
  · rintro ⟨index, hindex, hexact⟩ channel hmem henabled hmodels
    have honce := (entries_once_iff henabled hmodels).mp fun group model hserves =>
      (hcount hindex hmem group model).symm.trans (hexact.once channel hmem group model hserves)
    refine ⟨honce.1, honce.2, fun group hgroup => emptyIndex_isSome.mp ?_⟩
    obtain ⟨model, hmodel⟩ := exists_mem_of_ne_nil _ hmodels
    exact (initIndex_eq_some_iff sorter db).mp ⟨index, hindex⟩ channel hmem (group, model)
      (mem_entries.mpr ⟨henabled, hgroup, hmodel⟩)
  · intro h
    obtain ⟨index, hindex⟩ := (initIndex_eq_some_iff sorter db).mpr
      fun channel hmem entry hentry => by
      obtain ⟨henabled, hgroup, hmodel⟩ := mem_entries.mp hentry
      exact emptyIndex_isSome.mpr ((h channel hmem henabled (ne_nil_of_mem hmodel)).2.2 entry.1
        hgroup)
    refine ⟨index, hindex, fun channel hmem group model hserves => ?_, fun group model id hid => ?_,
      fun group model => (initIndex_list hindex group model).2⟩
    · obtain ⟨hgroups, hnames, -⟩ := h channel hmem hserves.1 (ne_nil_of_mem hserves.2.2)
      rw [hcount hindex hmem]
      exact (entries_once_iff hserves.1 (ne_nil_of_mem hserves.2.2)).mpr ⟨hgroups,
        hnames⟩ _ _ hserves
    · exact mem_entered.mp ((initIndex_list hindex group model).1.mem_iff.mp hid)

/-- Insertion sort, as one way to sort. -/
def insertionSorter : SortSlice where
  sort priority ids := ids.insertionSort fun a b => priority b ≤ priority a
  perm _ _ := perm_insertionSort _ _
  sorted priority ids := by
    exact pairwise_insertionSort _ _

/-- A channel without ability rows, as while they are rebuilt, and one that lists a model twice. -/
theorem initIndex_fails :
    initIndex insertionSorter ⟨Table.ofList _ [{ id := 1, models := "a" }], []⟩ = none ∧
    ((initIndex insertionSorter ⟨Table.ofList _ [{ id := 1, models := "a,a" }],
      ({ id := 1, models := "a,a" } : Channel).addAbilities⟩).map fun index =>
        index.list "default" "a") = some [1, 1] := by
  decide

end TokenGateway.Channels
