import Mathlib.Algebra.BigOperators.Ring.List
import Mathlib.Data.List.Dedup
import TokenGateway.Channels.Index

namespace TokenGateway.Channels

open Base List
open Expression (trimSpace)

/-!
# The selection of a channel

`model/channel_cache.go` (`GetRandomSatisfiedChannel`), `model/ability.go` (`GetChannel`) and
`model/channel_constraint.go`.  The cache looks a model up in the index, and then its normalized
name; the database is asked for the ability rows of the model.  Both filter, and draw from one level
of priority.

* `channelSatisfiesFilters`, `filterCandidateIDs` — the filters;
* `cacheLevel`, `dbLevel` — the channels that are drawn from;
* `getRandomSatisfiedChannel`, `getChannel` — the draws.
-/

/-! ### Filters -/

inductive FilterKind where
  | personalAuthorization | videoEnhance | requestPath | taskPluginIdentity | responsesWebSocket
  | other (name : String)
  deriving DecidableEq

structure ChannelFilter where
  kind : FilterKind
  allowedChannelIDs : List Int := []
  (requestPath taskPluginKey : String := "")
  taskPluginKeys : List String := []
  taskPluginChannelTypes : List Nat := []

/-- What routing takes from elsewhere. -/
structure Routing where
  /-- `RoutingMatchModelName`. -/
  routingMatchModelName : String → String
  /-- `SeedanceEnhanceModelAvailable` of an enhanced name. -/
  seedanceEnhanceModelAvailable : String → Bool
  /-- A route of `AdvancedCustom` takes a path and a model. -/
  matchesPathForModel : AdvancedCustomRoute → String → String → Bool

def channelTypeOpenAI : Nat := 1
def channelTypeVolcEngine : Nat := 45
def channelTypeDoubaoVideo : Nat := 54
def channelTypeCodex : Nat := 57
def channelTypeAdvancedCustom : Nat := 58
def channelTypeSub2API : Nat := 59
def channelTypeNewAPI : Nat := 60
def channelTypeTaskPlugin : Nat := 61
def channelTypeVLLM : Nat := 62
def channelTypeSGLang : Nat := 63

def ChannelSettings.bindsTaskPlugin (s : ChannelSettings) (key : String) : Bool :=
  key != "" && (s.taskPluginKey == key || s.taskExtendPluginKeys.contains key)

/-- `NormalizeSeedanceEnhanceChannel` finds no fault. -/
def normalizeSeedanceEnhanceChannel (ch : Channel) : Bool :=
  match ch.seedanceEnhanceConfig with
  | none => false
  | some config =>
    !config.enabled ||
      ((ch.type == channelTypeDoubaoVideo || ch.type == channelTypeVolcEngine ||
        ((ch.type == channelTypeTaskPlugin || ch.type == channelTypeNewAPI) &&
          ch.setting.bindsTaskPlugin "doubao")) &&
        !(config.supplier == "volcengine" && ch.setting.videoUpstreamProtocol != "" &&
          ch.setting.videoUpstreamProtocol != "ark"))

variable (routing : Routing)

def seedanceEnhanceChannelAvailable (ch : Channel) (name : String) : Bool :=
  match Seedance.baseModel name with
  | none => true
  | some base =>
    ch.seedanceEnhanceConfig.any ChannelConfig.enabled && normalizeSeedanceEnhanceChannel ch &&
      routing.seedanceEnhanceModelAvailable name && (split ',' ch.models).contains base

def matchPathForModel (config : Option (List AdvancedCustomRoute)) (requestPath model : String) :
    Option AdvancedCustomRoute :=
  (config.getD []).find? fun route => routing.matchesPathForModel route requestPath
    (trimSpace model)

def AdvancedCustomRoute.isNative (route : AdvancedCustomRoute) : Bool :=
  let converter := trimSpace route.converter
  converter == "" || converter == "none"

def channelMatchesFilter (ch : Channel) (modelName : String) (filter : ChannelFilter) : Bool :=
  match filter.kind with
  | .personalAuthorization => filter.allowedChannelIDs.contains ch.id
  | .requestPath =>
    filter.requestPath == "" ||
      !(ch.type == channelTypeAdvancedCustom || ch.type == channelTypeVLLM ||
        ch.type == channelTypeSGLang) ||
      (matchPathForModel routing ch.advancedCustom filter.requestPath modelName).isSome
  | .taskPluginIdentity =>
    if filter.taskPluginKey = "" then ch.type != channelTypeTaskPlugin
    else if ch.type = channelTypeTaskPlugin ∨ ch.type = channelTypeNewAPI then
      ch.setting.bindsTaskPlugin filter.taskPluginKey ||
        filter.taskPluginKeys.any ch.setting.bindsTaskPlugin
    else filter.taskPluginChannelTypes.contains ch.type
  | .responsesWebSocket =>
    ch.setting.responsesWebSocketEnabled &&
      (if ch.type = channelTypeOpenAI ∨ ch.type = channelTypeCodex ∨ ch.type = channelTypeSub2API ∨
          ch.type = channelTypeNewAPI then true
        else if ch.type = channelTypeAdvancedCustom then
          (matchPathForModel routing ch.advancedCustom "/v1/responses" modelName).any
            AdvancedCustomRoute.isNative
        else false)
  | .videoEnhance | .other _ => true

def filterEvalOrder : List FilterKind :=
  [.personalAuthorization, .videoEnhance, .requestPath, .taskPluginIdentity, .responsesWebSocket]

def filtersByKind (filters : List ChannelFilter) (kind : FilterKind) : List ChannelFilter :=
  filters.filter (·.kind = kind)

/-- `ChannelSatisfiesFilters`: whether a channel passes, and if not, the kind of filter that it
    fails; a missing channel fails without one. -/
def channelSatisfiesFilters (ch : Option Channel) (modelName : String)
    (filters : List ChannelFilter) :
    Bool × Option FilterKind :=
  match ch with
  | none => (false, none)
  | some ch =>
    if !seedanceEnhanceChannelAvailable routing ch modelName then (false, some .videoEnhance)
    else
      match filterEvalOrder.find? fun kind =>
          (filtersByKind filters kind).any fun filter =>
            !channelMatchesFilter routing ch modelName filter with
      | some kind => (false, some kind)
      | none => (true, none)

def candidatePassesKindFilters (ch : Option Channel) (modelName : String) (kind : FilterKind)
    (filters : List ChannelFilter) : Bool :=
  match ch with
  | none => kind == .requestPath || kind == .videoEnhance
  | some ch =>
    !(kind == .videoEnhance && !seedanceEnhanceChannelAvailable routing ch modelName) &&
      filters.all (channelMatchesFilter routing ch modelName)

/-- `channelsIDM`. -/
abbrev ChannelMap := Int → Option Channel

/-- The loop of `filterCandidateIDs` over the kinds of filters. -/
def filterCandidates (channelsIDM : ChannelMap) (modelName : String)
    (filters : List ChannelFilter) :
    List FilterKind → List Int → List Int × Option FilterKind
  | [], kept => (kept, none)
  | kind :: rest, kept =>
    let kindFilters := filtersByKind filters kind
    if (kind = .videoEnhance ∧ Seedance.baseModel modelName = none) ∨
      (kindFilters = [] ∧ kind ≠ .videoEnhance) then
      filterCandidates channelsIDM modelName filters rest kept
    else
      let next := kept.filter fun id =>
        candidatePassesKindFilters routing (channelsIDM id) modelName kind kindFilters
      if kept ≠ [] ∧ next = [] then (next, some kind)
      else filterCandidates channelsIDM modelName filters rest next

def filterCandidateIDs (channelsIDM : ChannelMap) (ids : List Int) (modelName : String)
    (filters : List ChannelFilter) : List Int × Option FilterKind :=
  if ids = [] then (ids, none)
  else filterCandidates routing channelsIDM modelName filters filterEvalOrder ids

/-! ### Levels of priority -/

/-- The priorities, each once and in descending order. -/
def sortedUniquePriorities (priorities : List Int) : List Int :=
  priorities.dedup.insertionSort (· ≥ ·)

/-- The items of the level for a retry; the last level serves all further retries. -/
def levelOf {α : Type} (priority : α → Int) (items : List α) (retry : Nat) : List α :=
  let priorities := sortedUniquePriorities (items.map priority)
  match priorities[min retry (priorities.length - 1)]? with
  | none => []
  | some targetPriority => items.filter (priority · = targetPriority)

/-! ### Draws -/

section Draw

variable {α : Type}

/-- The Go `int` of these bits. -/
def int64 (n : Int) : Int := n.bmod (2 ^ 64)

/-- The loop of a draw: the first item whose weight takes what is left of the number below
    `floor`. -/
def drawFirst (weight : α → Int) (floor : Int) : List α → Int → Option α
  | [], _ => none
  | item :: rest, n =>
    let left := int64 (n - weight item)
    if left < floor then some item else drawFirst weight floor rest left

/-- A draw with `rand.Intn(total)`, which panics unless the total is positive; `random` decides. -/
def draw (total : Int) (select : Int → Option α) (notFound : String) (random : Nat) :
    Except String α :=
  if total ≤ 0 then .error "invalid argument to Intn"
  else
    match select (random % total) with
    | some item => .ok item
    | none => .error notFound

end Draw

/-! ### The cache -/

/-- The ids that pass the filters: those of the model, or else of its normalized name. -/
def cacheCandidates (index : Index) (channelsIDM : ChannelMap) (group model : String)
    (filters : List ChannelFilter) : List Int :=
  let channels := (filterCandidateIDs routing channelsIDM (index.list group model) model filters).1
  if channels = [] then
    (filterCandidateIDs routing channelsIDM (index.list group (routing.routingMatchModelName model))
      model filters).1
  else channels

/-- The channel of an id, which has to be in the cache. -/
def cachedChannel (channelsIDM : ChannelMap) (id : Int) : Except String Channel :=
  match channelsIDM id with
  | some channel => .ok channel
  | none => .error ("数据库一致性错误，渠道# " ++ toString id ++ " 不存在，请联系管理员修复")

/-- The channels that `GetRandomSatisfiedChannel` draws from. -/
def cacheLevel (index : Index) (channelsIDM : ChannelMap) (group model : String) (retry : Nat)
    (filters : List ChannelFilter) : Except String (List Channel) := do
  let channels ← (cacheCandidates routing index channelsIDM group model filters).mapM
    (cachedChannel channelsIDM)
  if channels.length = 1 then pure channels
  else pure (levelOf Channel.getPriority channels retry)

section Smoothing

variable (targetChannels : List Channel)

/-- `sumWeight`.  Additions wrap, so it is the wrapped exact sum. -/
def sumWeight : Int := int64 ((targetChannels.map Channel.getWeight).sum : Nat)

/-- Weights that are small on the average are multiplied. -/
def smoothingFactor : Int :=
  if sumWeight targetChannels ≠ 0 ∧
      (sumWeight targetChannels).tdiv targetChannels.length < 10 then 100
  else 1

/-- Without any weight the channels weigh alike. -/
def smoothingAdjustment : Int := if sumWeight targetChannels = 0 then 100 else 0

/-- The bound of the random weight. -/
def totalWeight : Int :=
  int64 ((if sumWeight targetChannels = 0 then (targetChannels.length : Int) * 100
    else sumWeight targetChannels) * smoothingFactor targetChannels)

/-- The channel that a random weight selects. -/
def channelAt (randomWeight : Int) : Option Channel :=
  drawFirst (fun channel => channel.getWeight * smoothingFactor targetChannels
    + smoothingAdjustment targetChannels) 0 targetChannels randomWeight

end Smoothing

/-- A random draw by weight. -/
def drawChannel (targetChannels : List Channel) : Nat → Except String Channel :=
  draw (totalWeight targetChannels) (channelAt targetChannels) "channel not found"

/-- The selection with the memory cache, by a draw from one level. -/
def cacheSelect (index : Index) (channelsIDM : ChannelMap) (group model : String) (retry : Nat)
    (filters : List ChannelFilter) (drawFrom : List Channel → Except String Channel) :
    Except String (Option Channel) :=
  match cacheCandidates routing index channelsIDM group model filters with
  | [] => .ok none
  | [id] => (cachedChannel channelsIDM id).map some
  | _ => do
    let targetChannels ← cacheLevel routing index channelsIDM group model retry filters
    let channel ← drawFrom targetChannels
    pure (some channel)

/-- `GetRandomSatisfiedChannel` with the memory cache; `random` decides the draw. -/
def getRandomSatisfiedChannel (index : Index) (channelsIDM : ChannelMap) (group model : String)
    (retry : Nat) (filters : List ChannelFilter) (random : Nat) : Except String (Option Channel) :=
  cacheSelect routing index channelsIDM group model retry filters (drawChannel · random)

/-! ### The database -/

/-- The enabled ability rows that pass the filters; the order of rows does not matter below. -/
def filterAbilitiesByConstraints (db : Database) (group model : String)
    (filters : List ChannelFilter) :
    List Ability :=
  db.abilities.filter fun ability =>
    ability.group = group ∧ ability.model = model ∧ ability.enabled ∧
      (channelSatisfiesFilters routing (db.channels.get? ability.channelId) model filters).1 = true

/-- The ability rows that `GetChannel` draws from. -/
def dbLevel (db : Database) (group model : String) (retry : Nat) (filters : List ChannelFilter) :
    List Ability :=
  levelOf (fun ability => ability.priority.getD 0)
    (filterAbilitiesByConstraints routing db group model filters) retry

/-- `int(weightSum)`. -/
def totalAbilityWeight (abilities : List Ability) : Int :=
  int64 ((abilities.map (·.weight + 10)).sum : Nat)

/-- The row that a random weight selects: the first at which nothing is left of it. -/
def abilityAt (abilities : List Ability) : Int → Option Ability :=
  drawFirst (fun ability => (ability.weight + 10 : Nat)) 1 abilities

/-- The draw of a row; no row is found for the id of an empty channel. -/
def drawAbility (abilities : List Ability) : Nat → Except String Ability :=
  draw (totalAbilityWeight abilities) (abilityAt abilities) "record not found"

/-- The selection from the rows of a level, by a draw. -/
def dbSelect (db : Database) (level : List Ability)
    (drawFrom : List Ability → Except String Ability) : Except String (Option Channel) :=
  match level with
  | [] => .ok none
  | abilities => do
    let ability ← drawFrom abilities
    match db.channels.get? ability.channelId with
    | some channel => .ok (some channel)
    | none => .error "record not found"

/-- `GetChannel`; `random` decides the draw. -/
def getChannel (db : Database) (group model : String) (retry : Nat) (filters : List ChannelFilter)
    (random : Nat) : Except String (Option Channel) :=
  dbSelect db (dbLevel routing db group model retry filters) (drawAbility · random)

/-! ### How often a candidate is drawn -/

/-- The weight of a channel in a draw, exactly: weights are smoothed, and without any weight each
    channel has 100. -/
def effectiveWeight (targetChannels : List Channel) (channel : Channel) : Nat :=
  let sumWeight := (targetChannels.map Channel.getWeight).sum
  if sumWeight = 0 then channel.getWeight + 100
  else if sumWeight / targetChannels.length < 10 then channel.getWeight * 100
  else channel.getWeight

/-- The first item whose weight, with those before it, passes a number. -/
def drawWeighted {α : Type} (weight : α → Nat) : List α → Nat → Option α
  | [], _ => none
  | item :: rest, n =>
    if n < weight item then some item else drawWeighted weight rest (n - weight item)

/-- How many random weights below a total select an item of a kind. -/
def drawsOf {α : Type} (select : Int → Option α) (total : Int) (kind : α → Bool) : Nat :=
  (List.range total.toNat).countP fun n : Nat => (select n).any kind

section Draws

variable {α : Type} {weight : α → Nat} {items : List α}

theorem int64_eq {n : Int} (hmin : -2 ^ 63 ≤ n) (hmax : n < 2 ^ 63) : int64 n = n :=
  Int.bmod_eq_of_le (by omega) (by omega)

theorem int64_lt (n : Int) : int64 n < 2 ^ 63 := by
  have := @Int.bmod_lt n (2 ^ 64) (by decide)
  unfold int64
  omega

/-- As long as nothing wraps, the loop finds what the exact weights give. -/
theorem drawFirst_eq {floor n : Int} (hweight : ∀ item ∈ items, weight item < 2 ^ 63)
    (hfloor : 0 ≤ floor) (hmin : 0 ≤ n) (hmax : n < 2 ^ 63)
    (hfirst : floor ≤ n ∨ ∀ item, 0 < weight item) :
    drawFirst (fun item => (weight item : Int)) floor items n =
      drawWeighted weight items (n - floor).toNat := by
  induction items generalizing n with
  | nil => rfl
  | cons item rest ih =>
    have hitem := hweight item mem_cons_self
    have hpos : floor ≤ n ∨ 0 < weight item := hfirst.imp_right (· item)
    have hleft : int64 (n - weight item) = n - weight item := int64_eq (by omega) (by omega)
    rw [drawFirst, drawWeighted, hleft]
    by_cases hstop : n - weight item < floor
    · rw [if_pos hstop, if_pos (by omega)]
    · rw [if_neg hstop, if_neg (by omega), ih (fun other hmem =>
        hweight other (mem_cons_of_mem _ hmem))
        (by omega) (by omega) (.inl (by omega))]
      congr 1
      omega

theorem drawFirst_mem {w : α → Int} {floor n : Int} {a : α}
    (h : drawFirst w floor items n = some a) : a ∈ items := by
  induction items generalizing n with
  | nil => cases h
  | cons item rest ih =>
    rw [drawFirst] at h
    split_ifs at h
    · cases h
      exact mem_cons_self
    · exact mem_cons_of_mem _ (ih h)

/-- Every draw selects iff there is something to draw from, and every number selects. -/
theorem draw_ok_iff {total : Int} {select : Int → Option α} {notFound : String} :
    (∀ random, ∃ item, draw total select notFound random = .ok item) ↔
      0 < total ∧ ∀ n : Nat, n < total → (select n).isSome := by
  unfold draw
  constructor
  · intro h
    have hpos : 0 < total := by
      by_contra hle
      obtain ⟨item, hitem⟩ := h 0
      rw [if_pos (by omega)] at hitem
      cases hitem
    refine ⟨hpos, fun n hn => ?_⟩
    obtain ⟨item, hitem⟩ := h n
    rw [if_neg (by omega), Int.emod_eq_of_lt (by omega) hn] at hitem
    cases hat : select n with
    | none =>
      rw [hat] at hitem
      cases hitem
    | some found => rfl
  · rintro ⟨hpos, hall⟩ random
    have hmod := Int.emod_nonneg (random : Int) (by omega : total ≠ 0)
    have hlt := Int.emod_lt_of_pos (random : Int) hpos
    obtain ⟨n, hn⟩ := Int.eq_ofNat_of_zero_le hmod
    obtain ⟨item, hitem⟩ := Option.isSome_iff_exists.mp (hall n (by omega))
    exact ⟨item, by rw [if_neg (by omega), hn, hitem]⟩

theorem drawsOf_congr {total : Int} {select : Int → Option α} {spec : Nat → Option α}
    (h : ∀ n : Nat, n < total → select n = spec n) (kind : α → Bool) :
    drawsOf select total kind = (List.range total.toNat).countP fun n => (spec n).any kind :=
  countP_congr fun n hn => by
    rw [h n]
    have := mem_range.mp hn
    omega

/-- If every number selects, all of them are draws of some item. -/
theorem drawsOf_all {total : Int} {select : Int → Option α}
    (h : ∀ n : Nat, n < total → (select n).isSome) :
    drawsOf select total (fun _ => true) = total.toNat := by
  rw [drawsOf, countP_eq_length.mpr, length_range]
  intro n hn
  have := mem_range.mp hn
  obtain ⟨item, hitem⟩ := Option.isSome_iff_exists.mp (h n (by omega))
  rw [hitem]
  rfl

theorem drawWeighted_isSome {n : Nat} (hn : n < (items.map weight).sum) :
    (drawWeighted weight items n).isSome := by
  induction items generalizing n with
  | nil => simp at hn
  | cons item rest ih =>
    rw [map_cons, sum_cons] at hn
    rw [drawWeighted]
    split_ifs with hhead
    · rfl
    · exact ih (by omega)

theorem countP_drawWeighted (kind : α → Bool) :
    (List.range (items.map weight).sum).countP (fun n => (drawWeighted weight items n).any kind) =
      ((items.filter kind).map weight).sum := by
  induction items with
  | nil => rfl
  | cons item rest ih =>
    -- the first draws select the head, and the others are those from the rest
    have hhead : (List.range (weight item)).countP
        (fun n => (drawWeighted weight (item :: rest) n).any kind) =
          if kind item then weight item else 0 := by
      rw [countP_congr (q := fun _ => kind item)]
      · cases kind item <;> simp
      · intro n hn
        simp [drawWeighted, mem_range.mp hn]
    rw [map_cons, sum_cons, range_add, countP_append, hhead, countP_map]
    have htail : (fun n => (drawWeighted weight (item :: rest) n).any kind) ∘ (weight item + ·) =
        fun n => (drawWeighted weight rest n).any kind := by
      funext n
      simp [drawWeighted]
    rw [htail, ih]
    cases hkind : kind item <;> simp [hkind]

theorem drawWeighted_last (hpos : ∀ item, 0 < weight item) :
    drawWeighted weight items ((items.map weight).sum - 1) = items.getLast? := by
  induction items with
  | nil => rfl
  | cons item rest ih =>
    have hitem := hpos item
    cases rest with
    | nil => simp [drawWeighted, hitem]
    | cons next rest =>
      have hnext := hpos next
      simp only [map_cons, sum_cons] at ih ⊢
      rw [drawWeighted, if_neg (by omega), getLast?_cons_cons, ← ih]
      congr 1
      omega

/-- If 0 counts like 1, the first item takes a draw of the last one. -/
theorem countP_drawWeighted_pred (hpos : ∀ item, 0 < weight item) (hne : items ≠ [])
    (kind : α → Bool) :
    (List.range (items.map weight).sum).countP (fun n =>
      (drawWeighted weight items (n - 1)).any kind) + (items.getLast?.any kind).toNat =
      ((items.filter kind).map weight).sum + (items.head?.any kind).toNat := by
  obtain ⟨item, rest, rfl⟩ := exists_cons_of_ne_nil hne
  obtain ⟨total, htotal⟩ : ∃ total, ((item :: rest).map weight).sum = total + 1 :=
    Nat.exists_eq_add_one.mpr (by simpa using Nat.add_pos_left (hpos item) _)
  have hlast := @drawWeighted_last _ weight (item :: rest) hpos
  rw [htotal, Nat.add_sub_cancel] at hlast
  have hfirst : drawWeighted weight (item :: rest) 0 = some item := by simp [drawWeighted, hpos]
  rw [← countP_drawWeighted, htotal]
  nth_rewrite 2 [range_succ]
  rw [range_succ_eq_map, countP_cons, countP_map, countP_append, countP_singleton, hlast, hfirst]
  simp only [Function.comp_def]
  by_cases hitem : kind item <;> by_cases hend : (item :: rest).getLast?.any kind <;>
    simp [hitem, hend]

end Draws

/-! ### Both modes -/

section Channels

variable {targetChannels : List Channel}

theorem getWeight_le_effectiveWeight (channel : Channel) :
    channel.getWeight ≤ effectiveWeight targetChannels channel := by
  unfold effectiveWeight
  dsimp only
  split_ifs <;> omega

theorem effectiveWeight_sum_pos (h : targetChannels ≠ []) :
    0 < (targetChannels.map (effectiveWeight targetChannels)).sum := by
  have := length_pos_iff.mpr h
  unfold effectiveWeight
  dsimp only
  split_ifs with hzero
  · simpa using Or.inr this
  · rw [sum_map_mul_right]
    omega
  · exact Nat.pos_of_ne_zero hzero

variable (hsum : (targetChannels.map (effectiveWeight targetChannels)).sum < 2 ^ 63)
include hsum

theorem effectiveWeight_lt {channel : Channel} (h : channel ∈ targetChannels) :
    effectiveWeight targetChannels channel < 2 ^ 63 :=
  (le_sum_of_mem (mem_map_of_mem h)).trans_lt hsum

theorem sumWeight_eq : sumWeight targetChannels = (targetChannels.map Channel.getWeight).sum := by
  have hle : (targetChannels.map Channel.getWeight).sum ≤
      (targetChannels.map (effectiveWeight targetChannels)).sum :=
    sum_le_sum fun channel _ => getWeight_le_effectiveWeight channel
  exact int64_eq (by omega) (by omega)

/-- With exact sums the weights are smoothed to the effective weights. -/
theorem smoothing_eq (channel : Channel) :
    channel.getWeight * smoothingFactor targetChannels + smoothingAdjustment targetChannels =
      effectiveWeight targetChannels channel := by
  rw [smoothingFactor, smoothingAdjustment, effectiveWeight, sumWeight_eq hsum, ← Int.ofNat_tdiv]
  split_ifs <;> omega

theorem totalWeight_eq :
    totalWeight targetChannels = (targetChannels.map (effectiveWeight targetChannels)).sum := by
  have htotal : (if sumWeight targetChannels = 0 then (targetChannels.length : Int) * 100
      else sumWeight targetChannels) * smoothingFactor targetChannels =
        (targetChannels.map (effectiveWeight targetChannels)).sum := by
    rw [smoothingFactor, sumWeight_eq hsum, ← Int.ofNat_tdiv]
    unfold effectiveWeight
    generalize hexact : (targetChannels.map Channel.getWeight).sum = exact
    by_cases hzero : exact = 0
    · simp [hzero, sum_map_add, hexact]
    · by_cases hsmall : exact / targetChannels.length < 10
      · rw [if_neg (by omega), if_pos ⟨by omega, by omega⟩]
        simp [hzero, hsmall, sum_map_mul_right, hexact]
      · rw [if_neg (by omega), if_neg fun h => hsmall (by omega)]
        simp [hzero, hsmall, hexact]
  rw [totalWeight, htotal]
  exact int64_eq (by omega) (by omega)

theorem channelAt_eq {n : Nat} (hn : n < totalWeight targetChannels) :
    channelAt targetChannels n =
      drawWeighted (effectiveWeight targetChannels) targetChannels n := by
  rw [totalWeight_eq hsum] at hn
  have heq := @drawFirst_eq _ (effectiveWeight targetChannels) targetChannels 0 n
    (fun channel hmem => effectiveWeight_lt hsum hmem) le_rfl (by omega) (by omega)
      (.inl (by omega))
  rw [Int.sub_zero, Int.toNat_natCast] at heq
  rw [← heq, channelAt]
  simp only [smoothing_eq hsum]

end Channels

/-- If the code's total and the exact one are the same number, it is an `int64`. -/
theorem total_lt {α : Type} {select : Int → Option α} {total : Int} {exact : Nat}
    (hmax : total < 2 ^ 63) (hselect : ∀ n : Nat, n < total → (select n).isSome)
    (hall : drawsOf select total (fun _ => true) = exact) : exact < 2 ^ 63 := by
  rw [drawsOf_all hselect] at hall
  omega

/-- The draws of rows, as long as nothing wraps. -/
theorem rows_draws {abilities : List Ability} (habilities : abilities ≠ [])
    (hsum : (abilities.map (·.weight + 10)).sum < 2 ^ 63) :
    (∀ random, ∃ ability, drawAbility abilities random = .ok ability) ∧
      ∀ kind, drawsOf (abilityAt abilities) (totalAbilityWeight abilities) kind +
          (abilities.getLast?.any kind).toNat =
        ((abilities.filter kind).map (·.weight + 10)).sum + (abilities.head?.any kind).toNat := by
  have htotal : totalAbilityWeight abilities = ((abilities.map (·.weight + 10)).sum : Nat) :=
    int64_eq (by omega) (by omega)
  have hselect : ∀ n : Nat, n < totalAbilityWeight abilities →
      abilityAt abilities n = drawWeighted (·.weight + 10) abilities (n - 1) := by
    intro n hn
    have heq := @drawFirst_eq _ (·.weight + 10) abilities 1 n
      (fun ability hmem => (le_sum_of_mem (mem_map_of_mem hmem)).trans_lt hsum) (by omega)
        (by omega)
      (by omega) (.inr fun _ => Nat.succ_pos _)
    rw [show ((n : Int) - 1).toNat = n - 1 by omega] at heq
    exact heq
  have hpos : 0 < (abilities.map (·.weight + 10)).sum := by
    obtain ⟨ability, rest, rfl⟩ := exists_cons_of_ne_nil habilities
    simp
  refine ⟨draw_ok_iff.mpr ⟨by omega, fun n hn => ?_⟩, fun kind => ?_⟩
  · rw [hselect n hn]
    exact drawWeighted_isSome (by omega)
  · rw [drawsOf_congr hselect, htotal, Int.toNat_natCast]
    exact countP_drawWeighted_pred (fun _ => Nat.succ_pos _) habilities kind

/-- **Weighted draws.**  With the cache every draw selects a channel, and each kind of channels has
    as many draws as it weighs, iff the total is an `int64`.  From the database the first row has
    one draw that belongs to the last row, so that the draws are exact iff, beyond that, the two are
    one. -/
theorem weighted_draws {targetChannels : List Channel} {abilities : List Ability}
    (hchannels : targetChannels ≠ []) (habilities : abilities ≠ []) :
    (((∀ random, ∃ channel, drawChannel targetChannels random = .ok channel) ∧
        ∀ kind, drawsOf (channelAt targetChannels) (totalWeight targetChannels) kind =
          ((targetChannels.filter kind).map (effectiveWeight targetChannels)).sum) ↔
      (targetChannels.map (effectiveWeight targetChannels)).sum < 2 ^ 63) ∧
    (((∀ random, ∃ ability, drawAbility abilities random = .ok ability) ∧
        ∀ kind, drawsOf (abilityAt abilities) (totalAbilityWeight abilities) kind +
            (abilities.getLast?.any kind).toNat =
          ((abilities.filter kind).map (·.weight + 10)).sum + (abilities.head?.any kind).toNat) ↔
      (abilities.map (·.weight + 10)).sum < 2 ^ 63) ∧
    (((∀ random, ∃ ability, drawAbility abilities random = .ok ability) ∧
        ∀ kind, drawsOf (abilityAt abilities) (totalAbilityWeight abilities) kind =
          ((abilities.filter kind).map (·.weight + 10)).sum) ↔
      (abilities.map (·.weight + 10)).sum < 2 ^ 63 ∧ abilities.head? = abilities.getLast?) := by
  have hchannelTotal : totalWeight targetChannels < 2 ^ 63 := by
    rw [totalWeight]
    exact int64_lt _
  have habilityTotal : totalAbilityWeight abilities < 2 ^ 63 := by
    rw [totalAbilityWeight]
    exact int64_lt _
  refine ⟨⟨fun h => ?_, fun hsum => ?_⟩, ⟨fun h => ?_, rows_draws habilities⟩, fun h => ?_,
    fun h => ⟨(rows_draws habilities h.1).1, fun kind => ?_⟩⟩
  · exact total_lt hchannelTotal (draw_ok_iff.mp h.1).2 (by simpa using h.2 fun _ => true)
  · have hselect : ∀ n : Nat, n < totalWeight targetChannels → channelAt targetChannels n = _ :=
      fun n hn => channelAt_eq hsum hn
    have htotal := totalWeight_eq hsum
    have hpos := effectiveWeight_sum_pos hchannels
    refine ⟨draw_ok_iff.mpr ⟨by omega, fun n hn => ?_⟩, fun kind => ?_⟩
    · rw [hselect n hn]
      exact drawWeighted_isSome (by omega)
    · rw [drawsOf_congr hselect, htotal, Int.toNat_natCast, countP_drawWeighted]
  · have hall := h.2 fun _ => true
    obtain ⟨first, rest, rfl⟩ := exists_cons_of_ne_nil habilities
    simp only [getLast?_cons, head?_cons, Option.any_some, Bool.toNat_true, filter_true] at hall
    exact total_lt habilityTotal (draw_ok_iff.mp h.1).2 (Nat.add_right_cancel hall)
  · have hsum : (abilities.map (·.weight + 10)).sum < 2 ^ 63 :=
      total_lt habilityTotal (draw_ok_iff.mp h.1).2 (by simpa using h.2 fun _ => true)
    refine ⟨hsum, ?_⟩
    -- the kind of the first row alone
    obtain ⟨first, rest, rfl⟩ := exists_cons_of_ne_nil habilities
    classical
    have hfirst := (rows_draws habilities hsum).2 fun ability => decide (ability = first)
    rw [h.2, Nat.add_left_cancel_iff] at hfirst
    obtain ⟨last, hlast⟩ := Option.isSome_iff_exists.mp (getLast?_isSome.mpr habilities)
    rw [hlast] at hfirst ⊢
    by_cases heq : last = first
    · rw [heq, head?_cons]
    · simp [heq] at hfirst
  · have hkind := (rows_draws habilities h.1).2 kind
    rw [h.2] at hkind
    omega

/-- Two channels with small weights: 2 and 3, each a hundred times. -/
theorem weighted_draws_smoothed :
    drawsOf (channelAt [{ id := 1, weight := some 2 }, { id := 2, weight := some 3 }]) 500
      (·.id = 2) = 300 :=
  ((@weighted_draws [{ id := 1, weight := some 2 }, { id := 2, weight := some 3 }]
    [⟨"default", "m", 1, true, none, 4⟩, ⟨"default", "m", 2, true, none, 0⟩] (by simp)
    (by simp)).1.mpr (by decide)).2 (·.id = 2)

/-- **Draws from the database are not exact**: of two rows without a weight the first is drawn 11
    times and the second 9 times, not 10 times each.  And two channels that weigh `2 ^ 62` each have
    no draw at all. -/
theorem ability_draws_unequal :
    let ability (channelId : Int) : Ability := ⟨"default", "m", channelId, true, none, 0⟩
    let draws (channelId : Int) :=
      drawsOf (abilityAt [ability 1, ability 2]) 20 (·.channelId = channelId)
    let heavy (id : Int) : Channel := { id, weight := some (2 ^ 62) }
    draws 1 = 11 ∧ draws 2 = 9 ∧ totalAbilityWeight [ability 1, ability 2] = 20 ∧
      (drawChannel [heavy 1, heavy 2] 0).toOption = none := by
  decide

end TokenGateway.Channels
