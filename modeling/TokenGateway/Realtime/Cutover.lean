import Mathlib.Data.List.Dedup
import TokenGateway.Realtime.Personal

namespace TokenGateway.Realtime

open List

/-!
# The cutover changes no price

The legacy matrix is read row by row; realtime rules group the rows of a user and a model into one
ratio with a list of channels.  A cutover without conflicts keeps what every user pays on every
channel, and a cutover with conflicts changes nothing.

* `Grouped` — what the loop of `MigrateRealtimePricing` has collected, row by row;
* `Reachable`, `reachable_untouched` — before the cutover there are no rules of any subject;
* `Agrees` — the migrated rules of a user against its rows;
* `SamePrices` — the statement about two resolutions;
* `cutover_keeps_prices` — the result.
-/

variable {hash : String → String}

/-! ### Maps of channels -/

variable {R : Int → PersonalChannelPrice → Prop} {config : RealtimePricingConfig} {name : String}
  {channel : Int} {item : RealtimePricingItem}

theorem lookup_entry (entry : Int × PersonalChannelPrice)
    (rest : List (Int × PersonalChannelPrice)) (channel : Int) :
    (entry :: rest).lookup channel =
      if channel = entry.1 then some entry.2 else rest.lookup channel := by
  split_ifs with h
  · rw [lookup_cons, h]
    simp
  · rw [lookup_cons, beq_eq_false_iff_ne.mpr h]

theorem lookup_setPrice (channels : List (Int × PersonalChannelPrice)) (id channel : Int)
    (price : PersonalChannelPrice) :
    (setPrice channels id price).lookup channel =
      if channel = id then some price else channels.lookup channel := by
  unfold setPrice
  rw [lookup_entry]
  split_ifs with h
  · rfl
  induction channels with
  | nil => rfl
  | cons entry rest ih =>
    rw [filter_cons]
    by_cases he : entry.1 = id
    · rw [if_neg (by simp [he]), ih, lookup_entry, if_neg (he ▸ h)]
    · rw [if_pos (by simp [he]), lookup_entry, lookup_entry, ih]

/-- A map whose entries are those of a relation; where the relation is not functional, any of the
    related prices. -/
structure Entries (channels : List (Int × PersonalChannelPrice))
    (R : Int → PersonalChannelPrice → Prop) : Prop where
  sound : ∀ channel price, channels.lookup channel = some price → R channel price
  complete : ∀ channel price, R channel price → channels.lookup channel ≠ none

theorem Entries.nil : Entries [] fun _ _ => False where
  sound := nofun
  complete := nofun

theorem Entries.set {channels : List (Int × PersonalChannelPrice)} (h : Entries channels R)
    (id : Int) (price : PersonalChannelPrice) :
    Entries (setPrice channels id price) fun channel p =>
      R channel p ∨ channel = id ∧ p = price where
  sound channel p hp := by
    rw [lookup_setPrice] at hp
    split_ifs at hp with hid
    · exact .inr ⟨hid, (Option.some.inj hp).symm⟩
    · exact .inl (h.sound channel p hp)
  complete channel p hp := by
    rw [lookup_setPrice]
    split_ifs with hid
    · exact nofun
    · rcases hp with hp | ⟨hid', -⟩
      · exact h.complete channel p hp
      · exact absurd hid' hid

theorem Entries.congr {channels : List (Int × PersonalChannelPrice)}
    {S : Int → PersonalChannelPrice → Prop} (h : Entries channels R)
    (hRS : ∀ channel price, R channel price ↔ S channel price) : Entries channels S where
  sound channel price hp := (hRS channel price).mp (h.sound channel price hp)
  complete channel price hp := h.complete channel price ((hRS channel price).mpr hp)

variable {α : Type}

theorem Entries.foldl {E : α → Int → PersonalChannelPrice → Prop}
    {step : List (Int × PersonalChannelPrice) → α → List (Int × PersonalChannelPrice)}
    (hstep : ∀ channels R x, Entries channels R →
      Entries (step channels x) fun channel price => R channel price ∨ E x channel price)
    (xs : List α) {channels : List (Int × PersonalChannelPrice)} (h : Entries channels R) :
    Entries (xs.foldl step channels) fun channel price =>
      R channel price ∨ ∃ x ∈ xs, E x channel price := by
  induction xs generalizing channels R with
  | nil => exact h.congr fun channel price => by simp
  | cons x rest ih =>
    refine (ih (hstep channels R x h)).congr fun channel price => ?_
    simp [or_assoc]

theorem ordinaryChannels_entries (name : String) (own : List ResellerModelConfig) :
    Entries (ordinaryChannels name own) fun channel price =>
      ∃ row ∈ own, (row.model = name ∧ row.ratio ≠ resellerRatioScale) ∧ channel = row.channelID ∧
        price = { customerRatio := row.ratio, agentRatio := resellerRatioScale } := by
  refine (Entries.foldl (fun channels R row h => ?_) own Entries.nil).congr
    fun channel price => by rw [false_or]
  split_ifs with hrow
  · exact (h.set _ _).congr fun channel price => by simp [hrow]
  · exact h.congr fun channel price => by simp [hrow]

theorem customerChannels_entries (name : String) (grants own : List ResellerModelConfig) :
    Entries (customerChannels name grants own) fun channel price =>
      ∃ row ∈ own, row.model = name ∧ channel = row.channelID ∧
        ∃ grant, authorizedBy grants row = some grant ∧
          price = { customerRatio := row.ratio, agentRatio := grant.ratio } := by
  refine (Entries.foldl (fun channels R row h => ?_) own Entries.nil).congr
    fun channel price => by rw [false_or]
  split
  · rename_i hnone
    exact h.congr fun channel price => by simp [hnone]
  rename_i grant hgrant
  split_ifs with hname
  · exact (h.set _ _).congr fun channel price => by simp [hname, hgrant]
  · exact h.congr fun channel price => by simp [hname]

theorem realtimeChannels_entries (personal organization : RealtimePricingConfig) (name : String) :
    Entries (realtimeChannels personal organization name) fun channel price =>
      (∃ item ∈ organization.items ++ personal.items, item.model = name ∧
        channel ∈ item.channelIDs) ∧
      price = resolveRealtimeChannel personal organization name channel := by
  have hitem : ∀ channels R (item : RealtimePricingItem), Entries channels R →
      Entries (item.channelIDs.foldl (fun channels id => setPrice channels id
          (resolveRealtimeChannel personal organization name id)) channels)
        fun channel price => R channel price ∨ ∃ id ∈ item.channelIDs, channel = id ∧
          price = resolveRealtimeChannel personal organization name id :=
    fun channels R item h => Entries.foldl
      (fun channels R id h =>
        h.set id (resolveRealtimeChannel personal organization name id)) item.channelIDs h
  refine (Entries.foldl hitem _ Entries.nil).congr fun channel price => ?_
  constructor
  · rintro (hfalse | ⟨item, hmem, id, hid, rfl, rfl⟩)
    · exact hfalse.elim
    · obtain ⟨hmem, hname⟩ := mem_filter.mp hmem
      exact ⟨⟨item, hmem, of_decide_eq_true hname, hid⟩, rfl⟩
  · rintro ⟨⟨item, hmem, hname, hid⟩, rfl⟩
    exact .inr ⟨item, mem_filter.mpr ⟨hmem, decide_eq_true hname⟩, channel, hid, rfl, rfl⟩

theorem itemFor_eq_some (h : itemFor config name channel = some item) :
    item ∈ config.items ∧ item.model = name ∧ channel ∈ item.channelIDs :=
  ⟨mem_of_find?_eq_some h, by simpa using find?_some h⟩

theorem itemFor_eq_none :
    itemFor config name channel = none ↔ ∀ item ∈ config.items, item.model = name →
      channel ∉ item.channelIDs := by
  simp [itemFor]

variable {organization : RealtimePricingConfig}

/-- The price of a channel that no rule lists is the standard one. -/
theorem resolve_of_unlisted {personal : RealtimePricingConfig}
    (h : (realtimeChannels personal organization name).lookup channel = none) :
    resolveRealtimeChannel personal organization name channel =
      { customerRatio := resellerRatioScale, agentRatio := resellerRatioScale
        source := "system" } := by
  have hnone : ∀ config : RealtimePricingConfig,
      (∀ item ∈ config.items, item ∈ organization.items ++ personal.items) →
      itemFor config name channel = none := by
    intro config hsub
    refine itemFor_eq_none.mpr fun item hitem hname hid => ?_
    exact (realtimeChannels_entries personal organization name).complete channel _
      ⟨⟨item, hsub item hitem, hname, hid⟩, rfl⟩ h
  unfold resolveRealtimeChannel
  rw [hnone personal fun item h => mem_append_right _ h, hnone organization fun item h =>
    mem_append_left _ h]

theorem resolve_agentRatio (personal organization : RealtimePricingConfig) (name : String)
    (channel : Int) :
    (resolveRealtimeChannel personal organization name channel).agentRatio =
      resellerRatioScale := by
  unfold resolveRealtimeChannel
  split
  · rfl
  · split <;> rfl

/-! ### The loop over the rows -/

variable {done : List ResellerModelConfig} {row : ResellerModelConfig} {g : Grouping} {userID : Int}

/-- Two ratios that realtime rules allow have different texts. -/
theorem format_injective {a b : Int} (ha : ValidRatio a) (hb : ValidRatio b)
    (h : formatPersonalRatio a = formatPersonalRatio b) : a = b :=
  Option.some.inj ((parse_format ha).symm.trans (h ▸ parse_format hb))

/-- The rows of a user and a model. -/
def groupOf (done : List ResellerModelConfig) (key : Int × String) : List ResellerModelConfig :=
  done.filter fun row => (row.userID, row.model) = key

theorem mem_groupOf {key : Int × String} :
    row ∈ groupOf done key ↔ row ∈ done ∧ (row.userID, row.model) = key := by
  simp [groupOf]

theorem groupOf_append (done : List ResellerModelConfig) (row : ResellerModelConfig)
    (key : Int × String) :
    groupOf (done ++ [row]) key = groupOf done key ++ if (row.userID, row.model) = key
      then [row] else [] := by
  unfold groupOf
  by_cases h : (row.userID, row.model) = key <;> simp [h]

/-- What the loop has collected from the rows it has seen. -/
structure Grouped (hash : String → String) (done : List ResellerModelConfig) (g : Grouping) :
    Prop where
  item : ∀ key item, g.items key = some item →
    item.model = key.2 ∧ item.channelIDs = (groupOf done key).map (·.channelID) ∧
    groupOf done key ≠ []
  covered : ∀ row ∈ done, g.items (row.userID, row.model) ≠ none
  keys : ∀ key, key ∈ g.keys ↔ g.items key ≠ none
  hashed : ∀ row ∈ done, row.modelKey = hash row.model
  agreed : g.conflicts = [] → ∀ row ∈ done, ValidRatio row.ratio ∧
    ∀ item, g.items (row.userID, row.model) = some item → item.ratio = formatPersonalRatio row.ratio

theorem grouped_nil : Grouped hash [] {} where
  item := nofun
  covered := nofun
  keys key := by simp
  hashed := nofun
  agreed _ := nofun

theorem Grouped.channels (h : Grouped hash done g) (key : Int × String) :
    ((g.items key).map (·.channelIDs)).getD [] = (groupOf done key).map (·.channelID) := by
  cases hitem : g.items key with
  | some item => exact (h.item key item hitem).2.1
  | none =>
    have hempty : groupOf done key = [] := by
      refine eq_nil_iff_forall_not_mem.mpr fun row hrow => ?_
      obtain ⟨hmem, rfl⟩ := mem_groupOf.mp hrow
      exact h.covered row hmem hitem
    rw [hempty]
    rfl

theorem Grouped.add (h : Grouped hash done g) (hrow : row.modelKey = hash row.model) :
    Grouped hash (done ++ [row]) (addRow g row) where
  item key item hitem := by
    rw [groupOf_append]
    by_cases hkey : key = (row.userID, row.model)
    · subst hkey
      simp only [addRow, Function.update_self, Option.some.injEq] at hitem
      subst hitem
      rw [h.channels]
      simp
    · simp only [addRow, Function.update_of_ne hkey] at hitem
      rw [if_neg (Ne.symm hkey), append_nil]
      exact h.item key item hitem
  covered other hother := by
    by_cases hkey : (other.userID, other.model) = (row.userID, row.model)
    · simp [addRow, hkey]
    simp only [addRow, Function.update_of_ne hkey]
    rcases mem_append.mp hother with hother | hother
    · exact h.covered other hother
    · rw [mem_singleton.mp hother] at hkey
      exact absurd rfl hkey
  keys key := by
    by_cases hkey : key = (row.userID, row.model)
    · subst hkey
      cases hitem : g.items (row.userID, row.model) with
      | none => simp [addRow, hitem]
      | some item => simp [addRow, hitem, (h.keys _).mpr (hitem ▸ Option.some_ne_none item)]
    · simp only [addRow, Function.update_of_ne hkey, ← h.keys]
      split_ifs
      · rfl
      · simp [hkey]
  hashed := forall_mem_append.mpr ⟨h.hashed, forall_mem_singleton.mpr hrow⟩
  agreed hnone := by
    -- no conflict now means none before, a valid ratio, and the text of the group
    obtain ⟨hbefore, hratio, hgroup⟩ : g.conflicts = [] ∧ ratioConflicts row = [] ∧
        groupConflicts row (g.items (row.userID, row.model)) = [] := by
      simpa [addRow] using hnone
    have hvalid : ValidRatio row.ratio := by
      by_contra hne
      rw [ratioConflicts, if_neg hne] at hratio
      cases hratio
    intro other hother
    by_cases hkey : (other.userID, other.model) = (row.userID, row.model)
    · rcases mem_append.mp hother with hmem | hmem
      · refine ⟨(h.agreed hbefore other hmem).1, fun item hitem => ?_⟩
        simp only [addRow, hkey, Function.update_self, Option.some.injEq] at hitem
        subst hitem
        obtain ⟨old, hold⟩ := Option.ne_none_iff_exists'.mp (h.covered other hmem)
        rw [← (h.agreed hbefore other hmem).2 old hold]
        rw [hkey] at hold
        by_contra hne
        simp [groupConflicts, hold, Ne.symm hne] at hgroup
      · rw [mem_singleton.mp hmem]
        refine ⟨hvalid, fun item hitem => ?_⟩
        simp only [addRow, Function.update_self, Option.some.injEq] at hitem
        rw [← hitem]
    · rcases mem_append.mp hother with hmem | hmem
      · simpa only [addRow, Function.update_of_ne hkey] using h.agreed hbefore other hmem
      · rw [mem_singleton.mp hmem] at hkey
        exact absurd rfl hkey

theorem groupRows_grouped {rows : List ResellerModelConfig} {g' : Grouping}
    (h : groupRows hash g rows = .ok g') (hg : Grouped hash done g) :
    Grouped hash (done ++ rows) g' := by
  induction rows generalizing g done with
  | nil =>
    cases h
    rwa [append_nil]
  | cons row rest ih =>
    unfold groupRows at h
    split_ifs at h with hkey
    have hnext := ih h (hg.add (not_not.mp hkey))
    rwa [append_assoc] at hnext

theorem mem_itemsOf (h : Grouped hash done g) :
    item ∈ g.itemsOf userID ↔ g.items (userID, item.model) = some item := by
  unfold Grouping.itemsOf
  rw [mem_insertionSort, mem_filterMap]
  constructor
  · rintro ⟨key, hkey, hitem⟩
    have huser : key.1 = userID := of_decide_eq_true (mem_filter.mp hkey).2
    have hmodel := (h.item key item hitem).1
    rwa [← huser, hmodel]
  · intro hitem
    refine ⟨(userID, item.model), mem_filter.mpr ⟨(h.keys _).mpr ?_, by simp⟩, hitem⟩
    rw [hitem]
    exact nofun

theorem mem_users (h : Grouped hash done g) (hitem : item ∈ g.itemsOf userID) :
    userID ∈ g.users := by
  unfold Grouping.users
  rw [mem_dedup, mem_map]
  refine ⟨(userID, item.model), (h.keys _).mpr ?_, rfl⟩
  rw [(mem_itemsOf h).mp hitem]
  exact nofun

/-! ### Before the cutover -/

variable {db : PersonalDatabase}

/-- No rule, head or history exists before the cutover. -/
def Untouched (t : RealtimeTables) : Prop :=
  t.phase ≠ .active → t.heads = (fun _ => none) ∧ t.rules = [] ∧ t.history = []

variable {snapshotSize : List RealtimePricingItem → Nat}

/-- The databases that the operations lead to, from one without realtime rules.  The other tables
    may change in any way. -/
inductive Reachable (hash : String → String) (snapshotSize : List RealtimePricingItem → Nat) :
    PersonalDatabase → Prop where
  | fresh (db : PersonalDatabase) (phase : db.realtime.phase = .legacy)
      (heads : db.realtime.heads = fun _ => none) (rules : db.realtime.rules = [])
      (history : db.realtime.history = []) : Reachable hash snapshotSize db
  | other {db db' : PersonalDatabase} (h : Reachable hash snapshotSize db)
      (same : db'.realtime = db.realtime) : Reachable hash snapshotSize db'
  | save {db : PersonalDatabase} (h : Reachable hash snapshotSize db) {call : SaveCall}
      {config : RealtimePricingConfig} {t : RealtimeTables}
      (ok : saveRealtimePricing hash snapshotSize call db.realtime = .ok (config, t)) :
      Reachable hash snapshotSize { db with realtime := t }
  | migrate {db db' : PersonalDatabase} (h : Reachable hash snapshotSize db) {operator : Int}
      {action : MigrationAction} {conflicts : List RealtimeMigrationConflict}
      (ok : migrateRealtimePricing hash operator action db = .ok (conflicts, db')) :
      Reachable hash snapshotSize db'

/-- The rows that the cutover takes over. -/
def migratedRows (db : PersonalDatabase) : List ResellerModelConfig :=
  db.configs.filter fun row => match db.users row.userID with
    | some user => user.kind ≠ .agent
    | none => false

/-- What a successful call of `migrateRealtimePricing` has done. -/
inductive Migrated (hash : String → String) (operator : Int) (db : PersonalDatabase) :
    MigrationAction → List RealtimeMigrationConflict → PersonalDatabase → Prop where
  | freeze (phase : db.realtime.phase = .legacy) : Migrated hash operator db .freeze []
      { db with realtime := { db.realtime with phase := .frozen } }
  | resume (phase : db.realtime.phase = .frozen) : Migrated hash operator db .resume []
      { db with realtime := { db.realtime with phase := .legacy } }
  | refused {g : Grouping} (phase : db.realtime.phase = .frozen)
      (rows : groupRows hash {} (migratedRows db) = .ok g) (conflicts : g.conflicts ≠ []) :
      Migrated hash operator db .activate g.conflicts db
  | activated {g : Grouping} (phase : db.realtime.phase = .frozen)
      (rows : groupRows hash {} (migratedRows db) = .ok g) (conflicts : g.conflicts = []) :
      Migrated hash operator db .activate []
        { db with realtime := migratedTables hash operator g db.realtime }

variable {operator : Int}

theorem migrated_of_ok {action : MigrationAction} {db' : PersonalDatabase}
    {conflicts : List RealtimeMigrationConflict}
    (h : migrateRealtimePricing hash operator action db = .ok (conflicts, db')) :
    Migrated hash operator db action conflicts db' := by
  unfold migrateRealtimePricing at h
  split at h
  · cases h
  split_ifs at h
  split at h
  · rename_i hphase
    cases h
    exact .freeze hphase
  · rename_i hphase
    cases h
    exact .resume hphase
  · rename_i hphase
    dsimp only at h
    split at h
    · cases h
    rename_i g hg
    split_ifs at h with hconflicts hunique
    · cases h
      exact .refused hphase hg hconflicts
    · cases h
      exact .activated hphase hg (not_not.mp hconflicts)
  · cases h

theorem active_of_saved {call : SaveCall} {t t' : RealtimeTables}
    (h : saveRealtimePricing hash snapshotSize call t = .ok (config, t')) : t'.phase = .active := by
  unfold saveRealtimePricing at h
  split at h
  · cases h
  split_ifs at h with hinput hphase
  split at h
  · cases h
  unfold advanceHead at h
  dsimp only at h
  split_ifs at h
  split at h
  · cases h
  unfold storeRules at h
  dsimp only at h
  split_ifs at h
  cases h
  exact not_not.mp hphase

theorem reachable_untouched (h : Reachable hash snapshotSize db) : Untouched db.realtime := by
  induction h with
  | fresh db phase heads rules history => exact fun _ => ⟨heads, rules, history⟩
  | other h same ih => rwa [same]
  | save h ok ih => exact fun hphase => absurd (active_of_saved ok) hphase
  | migrate h ok ih =>
    cases migrated_of_ok ok with
    | freeze phase | resume phase => exact fun _ => ih (by simp [phase])
    | refused phase rows conflicts => exact ih
    | activated phase rows conflicts => exact fun hphase => absurd rfl hphase

/-! ### The rules of a user against its rows -/

variable {own : List ResellerModelConfig}

/-- The configuration of a user says of a model what the rows say. -/
structure Agrees (own : List ResellerModelConfig) (config : RealtimePricingConfig)
    (name : String) : Prop where
  listed : ∀ channel item, itemFor config name channel = some item → ∃ row ∈ own,
    row.model = name ∧ row.channelID = channel ∧
      parseRealtimePricingRatio item.ratio = some row.ratio
  unlisted : ∀ channel, itemFor config name channel = none → ∀ row ∈ own, row.model = name →
    row.channelID ≠ channel
  oneRatio : ∀ row ∈ own, ∀ other ∈ own, row.model = name → other.model = name →
    row.ratio = other.ratio

theorem Agrees.ratio (h : Agrees own config name) (organization : RealtimePricingConfig)
    (hrow : row ∈ own) (hname : row.model = name) :
    (resolveRealtimeChannel config organization name row.channelID).customerRatio = row.ratio := by
  unfold resolveRealtimeChannel
  cases hitem : itemFor config name row.channelID with
  | none => exact absurd rfl (h.unlisted _ hitem row hrow hname)
  | some item =>
    obtain ⟨other, hother, hmodel, -, hparse⟩ := h.listed _ item hitem
    simp only [hparse]
    exact h.oneRatio other hother row hrow hmodel hname

/-- The ratio of a channel without a row, where no organization has rules. -/
theorem Agrees.standard (h : Agrees own config name) (horganization : organization.items = [])
    (hnone : ∀ row ∈ own, row.model = name → row.channelID ≠ channel) :
    (resolveRealtimeChannel config organization name channel).customerRatio =
      resellerRatioScale := by
  have hpersonal : itemFor config name channel = none := by
    refine Option.eq_none_iff_forall_ne_some.mpr fun item hitem => ?_
    obtain ⟨row, hrow, hname, hchannel, -⟩ := h.listed channel item hitem
    exact hnone row hrow hname hchannel
  have hshared : itemFor organization name channel = none := by
    simp [itemFor_eq_none, horganization]
  rw [resolveRealtimeChannel, hpersonal, hshared]

section Overlay

variable {own : List ResellerModelConfig} {personal : RealtimePricingConfig}
  {name : String} {member : Option Organization} {userID : Int}

theorem overlay_ordinary {snapshot : Option PersonalPricingSnapshot}
    (hagent : (snapshot.map (·.agentUserID)).getD 0 = 0) (channel : Int) :
    authorizedChannel (some (overlay personal organization member userID name snapshot)) channel =
      true ∧
    effectiveRatios (some (overlay personal organization member userID name snapshot)) channel =
      ((resolveRealtimeChannel personal organization name channel).customerRatio,
        resellerRatioScale) := by
  have hid : (snapshot.getD { userID, model := name }).agentUserID = 0 := by
    cases snapshot with
    | none => rfl
    | some s => exact hagent
  constructor
  · simp [authorizedChannel, overlay, hid]
  cases hlookup : (realtimeChannels personal organization name).lookup channel with
  | none => simp [effectiveRatios, overlay, hid, hlookup, resolve_of_unlisted]
  | some price =>
    obtain ⟨-, rfl⟩ := (realtimeChannels_entries personal organization name).sound _ _ hlookup
    simp [effectiveRatios, overlay, hid, hlookup, resolve_agentRatio]

/-- The overlay of a customer: the channels stay, with their agent ratios. -/
theorem overlay_customer {s : PersonalPricingSnapshot} (hagent : 0 < s.agentUserID)
    (channel : Int) :
    ((overlay personal organization member userID name (some s)).channels.lookup channel).map
        (fun price => (price.customerRatio, price.agentRatio)) =
      (s.channels.lookup channel).map fun old =>
        ((resolveRealtimeChannel personal organization name channel).customerRatio,
          old.agentRatio) := by
  have hprice : ∀ id, ((realtimeChannels personal organization name).lookup id |>.getD
      { customerRatio := resellerRatioScale, agentRatio := 0, source := "system" }).customerRatio =
      (resolveRealtimeChannel personal organization name id).customerRatio := by
    intro id
    cases hlookup : (realtimeChannels personal organization name).lookup id with
    | none => rw [resolve_of_unlisted hlookup]; rfl
    | some price =>
      obtain ⟨-, rfl⟩ := (realtimeChannels_entries personal organization name).sound _ _ hlookup
      rfl
  simp only [overlay, Option.getD_some, hagent, if_true]
  induction s.channels with
  | nil => rfl
  | cons entry rest ih =>
    rw [map_cons, lookup_entry, lookup_entry]
    split_ifs with hid
    · subst hid
      simp [hprice]
    · exact ih

theorem ordinary_kept (h : Agrees own personal name) (horganization : organization.items = [])
    (channel : Int) :
    (resolveRealtimeChannel personal organization name channel).customerRatio =
      (((ordinaryChannels name own).lookup channel).map (·.customerRatio)).getD
        resellerRatioScale := by
  have hentries := ordinaryChannels_entries name own
  cases hlookup : (ordinaryChannels name own).lookup channel with
  | some price =>
    obtain ⟨row, hrow, ⟨hname, -⟩, rfl, rfl⟩ := hentries.sound _ _ hlookup
    exact h.ratio organization hrow hname
  | none =>
    by_cases hexists : ∃ row ∈ own, row.model = name ∧ row.channelID = channel
    · obtain ⟨row, hrow, hname, rfl⟩ := hexists
      -- the legacy map leaves out a row at the standard price
      have hscale : row.ratio = resellerRatioScale := by
        by_contra hne
        exact hentries.complete _ _ ⟨row, hrow, ⟨hname, hne⟩, rfl, rfl⟩ hlookup
      rw [h.ratio organization hrow hname, hscale]
      rfl
    · exact h.standard horganization fun row hrow hname hchannel =>
        hexists ⟨row, hrow, hname, hchannel⟩

end Overlay

/-! ### Reading the migrated rules -/

theorem mapM_eq_ok {β ε : Type} {f : α → Except ε β} {g : α → β} :
    ∀ {xs : List α}, (∀ x ∈ xs, f x = .ok (g x)) → xs.mapM f = .ok (xs.map g)
  | [], _ => rfl
  | x :: rest, h => by
    rw [mapM_cons, h x mem_cons_self, mapM_eq_ok fun y hy => h y (mem_cons_of_mem x hy)]
    rfl

section Read

variable {db : PersonalDatabase} {g : Grouping}

theorem migratedRows_pairwise (db : PersonalDatabase) :
    (migratedRows db).Pairwise fun a b => ¬ a.SameKey b :=
  db.configs_unique.sublist filter_sublist

/-- An activation that goes through: the rows form groups without conflicts, and no rule exists. -/
structure Activates (hash : String → String) (db : PersonalDatabase) (g : Grouping) : Prop where
  grouped : Grouped hash (migratedRows db) g
  conflicts : g.conflicts = []
  heads : db.realtime.heads = fun _ => none
  rules : db.realtime.rules = []

variable {userID : Int} {names : List String} (h : Activates hash db g)
include h

theorem item_rows (hitem : item ∈ g.itemsOf userID) :
    item.channelIDs ≠ [] ∧ (∀ channel ∈ item.channelIDs, 0 < channel) ∧ item.channelIDs.Nodup ∧
    ∃ ratio, ValidRatio ratio ∧ item.ratio = formatPersonalRatio ratio ∧
      ∀ row ∈ migratedRows db, row.userID = userID → row.model = item.model →
        row.ratio = ratio := by
  have hfound := (mem_itemsOf h.grouped).mp hitem
  obtain ⟨-, hchannels, hne⟩ := h.grouped.item _ item hfound
  obtain ⟨first, hfirst⟩ := exists_mem_of_ne_nil _ hne
  obtain ⟨hmem, hkey⟩ := mem_groupOf.mp hfirst
  obtain ⟨hvalid, htext⟩ := h.grouped.agreed h.conflicts first hmem
  have htext := htext item (hkey ▸ hfound)
  refine ⟨?_, ?_, ?_, first.ratio, hvalid, htext, ?_⟩
  · simpa [hchannels] using hne
  · rw [hchannels]
    rintro channel hchannel
    obtain ⟨row, -, rfl⟩ := mem_map.mp hchannel
    exact row.channel_pos
  · rw [hchannels, Nodup, pairwise_map]
    refine ((migratedRows_pairwise db).sublist filter_sublist).imp_of_mem ?_
    -- rows of one user and one model have one hash, so only the channel can tell them apart
    intro a b ha hb hab hchannel
    obtain ⟨ha, hka⟩ := mem_groupOf.mp ha
    obtain ⟨hb, hkb⟩ := mem_groupOf.mp hb
    obtain ⟨huser, hmodel⟩ := Prod.mk.inj (hka.trans hkb.symm)
    exact hab ⟨huser, by rw [h.grouped.hashed a ha, h.grouped.hashed b hb, hmodel], hchannel⟩
  · rintro row hrow rfl hmodel
    obtain ⟨hvalid', htext'⟩ := h.grouped.agreed h.conflicts row hrow
    exact format_injective hvalid' hvalid ((htext' item (hmodel ▸ hfound)).symm.trans htext)

/-- A migrated rule is read back as the item that it was made of. -/
theorem readRule_migrated (hitem : item ∈ g.itemsOf userID) :
    readRule hash (ruleOfItem hash userID item) = .ok item ∧
      (ruleOfItem hash userID item).item = item := by
  obtain ⟨hne, hpos, hnodup, ratio, hvalid, htext, -⟩ := item_rows h hitem
  have hsame : (ruleOfItem hash userID item).item = item := by
    cases item
    subst htext
    simp [ruleOfItem, RealtimePricingRule.item, parse_format hvalid]
  have hratio : ValidRatio (ruleOfItem hash userID item).ratio := by
    simpa [ruleOfItem, htext, parse_format hvalid] using hvalid
  refine ⟨?_, hsame⟩
  unfold readRule
  rw [if_neg (by simpa [ruleOfItem] using hne), if_neg (not_not.mpr hratio),
    if_neg (not_not.mpr ⟨hpos, hnodup⟩), hsame]

theorem mem_wanted {rule : RealtimePricingRule} :
    rule ∈ wantedRules hash (migratedTables hash operator g db.realtime) (.user, userID) names ↔
      (names = [] ∨ rule.modelKey ∈ names.map hash) ∧ userID ∈ g.users ∧
        ∃ item ∈ g.itemsOf userID, rule = ruleOfItem hash userID item := by
  unfold wantedRules RealtimeTables.rulesOf
  simp only [mem_filter, migratedTables, h.rules, nil_append, mem_flatMap, mem_map,
    decide_eq_true_eq]
  constructor
  · rintro ⟨⟨⟨id, hid, item, hitem, rfl⟩, hkey⟩, hnames⟩
    obtain rfl : id = userID := (Prod.mk.inj hkey).2
    exact ⟨hnames, hid, item, hitem, rfl⟩
  · rintro ⟨hnames, hid, item, hitem, rfl⟩
    exact ⟨⟨⟨userID, hid, item, hitem, rfl⟩, rfl⟩, hnames⟩

/-- The personal rules after the cutover. -/
def migratedConfig (hash : String → String) (operator : Int) (g : Grouping) (t : RealtimeTables)
    (userID : Int) (names : List String) : RealtimePricingConfig where
  revision := (migratedTables hash operator g t).revision (.user, userID)
  items := (wantedRules hash (migratedTables hash operator g t) (.user, userID) names).map (·.item)

theorem read_migrated (hpos : 0 < userID) :
    readRealtimePricing hash (migratedTables hash operator g db.realtime) (.user, userID) names =
      .ok (migratedConfig hash operator g db.realtime userID names) := by
  have hread : ∀ rule ∈ wantedRules hash (migratedTables hash operator g db.realtime)
      (.user, userID) names, readRule hash rule = .ok rule.item := by
    intro rule hrule
    obtain ⟨-, -, item, hitem, rfl⟩ := (mem_wanted h).mp hrule
    obtain ⟨hok, hsame⟩ := readRule_migrated h hitem
    rw [hok, hsame]
  have hrevision : ¬ (wantedRules hash (migratedTables hash operator g db.realtime)
      (.user, userID) names ≠ [] ∧
      (migratedTables hash operator g db.realtime).revision (.user, userID) ≤ 0) := by
    rintro ⟨hne, hle⟩
    obtain ⟨rule, hrule⟩ := exists_mem_of_ne_nil _ hne
    obtain ⟨-, hid, -⟩ := (mem_wanted h).mp hrule
    simp [RealtimeTables.revision, migratedTables, hid] at hle
  unfold readRealtimePricing
  rw [if_neg (not_le.mpr hpos)]
  rw [if_neg hrevision, mapM_eq_ok hread]
  rfl

/-- The items are those of the user's groups whose models are asked for. -/
theorem mem_migratedConfig :
    item ∈ (migratedConfig hash operator g db.realtime userID names).items ↔
      (names = [] ∨ hash item.model ∈ names.map hash) ∧ item ∈ g.itemsOf userID := by
  constructor
  · intro hmem
    obtain ⟨rule, hrule, rfl⟩ := mem_map.mp hmem
    obtain ⟨hnames, -, item, hitem, rfl⟩ := (mem_wanted h).mp hrule
    rw [(readRule_migrated h hitem).2]
    exact ⟨hnames, hitem⟩
  · rintro ⟨hnames, hitem⟩
    exact mem_map.mpr ⟨ruleOfItem hash userID item,
      (mem_wanted h).mpr ⟨hnames, mem_users h.grouped hitem, item, hitem, rfl⟩,
      (readRule_migrated h hitem).2⟩

theorem migratedConfig_agrees (hname : name ∈ names) :
    Agrees ((migratedRows db).filter fun row => row.userID = userID)
      (migratedConfig hash operator g db.realtime userID names) name where
  listed channel item hfound := by
    obtain ⟨hmem, hmodel, hchannel⟩ := itemFor_eq_some hfound
    have hitem := ((mem_migratedConfig h).mp hmem).2
    obtain ⟨-, -, -, ratio, hvalid, htext, hratio⟩ := item_rows h hitem
    obtain ⟨-, hchannels, -⟩ := h.grouped.item _ item ((mem_itemsOf h.grouped).mp hitem)
    rw [hchannels] at hchannel
    obtain ⟨row, hrow, rfl⟩ := mem_map.mp hchannel
    obtain ⟨hmem, hkey⟩ := mem_groupOf.mp hrow
    obtain ⟨huser, hrowModel⟩ := Prod.mk.inj hkey
    refine ⟨row, mem_filter.mpr ⟨hmem, decide_eq_true huser⟩, hrowModel.trans hmodel, rfl, ?_⟩
    rw [htext, parse_format hvalid, hratio row hmem huser hrowModel]
  unlisted := by
    rintro channel hnone row hrow hmodel rfl
    obtain ⟨hmem, huser⟩ := mem_filter.mp hrow
    have huser : row.userID = userID := of_decide_eq_true huser
    obtain ⟨item, hfound⟩ := Option.ne_none_iff_exists'.mp (h.grouped.covered row hmem)
    obtain ⟨hitemModel, hchannels, -⟩ := h.grouped.item _ item hfound
    have hitemName : item.model = name := hitemModel.trans hmodel
    have hitem : item ∈ g.itemsOf userID := by
      rw [mem_itemsOf h.grouped, hitemModel, ← huser]
      exact hfound
    refine itemFor_eq_none.mp hnone item ((mem_migratedConfig h).mpr
      ⟨.inr (mem_map.mpr ⟨name, hname, by rw [hitemName]⟩), hitem⟩) hitemName ?_
    rw [hchannels]
    exact mem_map.mpr ⟨row, mem_groupOf.mpr ⟨hmem, rfl⟩, rfl⟩
  oneRatio row hrow other hother hmodel hotherModel := by
    obtain ⟨hmem, huser⟩ := mem_filter.mp hrow
    obtain ⟨hotherMem, hotherUser⟩ := mem_filter.mp hother
    have hkey : (other.userID, other.model) = (row.userID, row.model) := by
      rw [of_decide_eq_true huser, of_decide_eq_true hotherUser, hmodel, hotherModel]
    obtain ⟨item, hfound⟩ := Option.ne_none_iff_exists'.mp (h.grouped.covered row hmem)
    obtain ⟨hvalid, htext⟩ := h.grouped.agreed h.conflicts row hmem
    obtain ⟨hvalid', htext'⟩ := h.grouped.agreed h.conflicts other hotherMem
    exact format_injective hvalid hvalid' ((htext item hfound).symm.trans
      (htext' item (hkey ▸ hfound)))

theorem organizationRules_migrated :
    organizationRules hash { db with realtime := migratedTables hash operator g db.realtime }
      userID names = .ok { revision := 0, items := [] } := by
  unfold organizationRules
  split
  · rfl
  rename_i member hmember
  have hnone : wantedRules hash (migratedTables hash operator g db.realtime)
      (.organization, member.id) names = [] := by
    refine filter_eq_nil_iff.mpr fun rule hrule => ?_
    obtain ⟨hrule, hkey⟩ := mem_filter.mp hrule
    simp only [migratedTables, h.rules, nil_append, mem_flatMap, mem_map] at hrule
    obtain ⟨id, -, item, -, rfl⟩ := hrule
    simp [ruleOfItem] at hkey
  have hrevision : (migratedTables hash operator g db.realtime).revision (.organization,
    member.id) = 0 := by
    simp [RealtimeTables.revision, migratedTables, h.heads]
  unfold readRealtimePricing
  rw [if_neg (not_le.mpr member.id_pos)]
  rw [hnone, hrevision]
  rfl

end Read

/-! ### The cutover -/

/-- A channel with the same price. -/
def SameAt (channel : Int) (before after : Option PersonalPricingSnapshot) : Prop :=
  authorizedChannel before channel = authorizedChannel after channel ∧
    effectiveRatios before channel = effectiveRatios after channel

/-- Two resolutions that fail alike, or give every model the same channels at the same prices. -/
inductive SamePrices : Except PricingError Snapshots → Except PricingError Snapshots → Prop where
  | error (e : PricingError) : SamePrices (.error e) (.error e)
  | ok {before after : Snapshots}
      (same : ∀ name channel,
        authorizedChannel (before name) channel = authorizedChannel (after name) channel ∧
        effectiveRatios (before name) channel = effectiveRatios (after name) channel) :
      SamePrices (.ok before) (.ok after)

theorem effectiveRatios_eq_map (snapshot : Option PersonalPricingSnapshot) (channel : Int) :
    effectiveRatios snapshot channel =
      ((snapshot.bind fun s => s.channels.lookup channel).map fun price =>
        (price.customerRatio, price.agentRatio)).getD (resellerRatioScale, resellerRatioScale) := by
  unfold effectiveRatios
  cases snapshot.bind fun s => s.channels.lookup channel <;> rfl

variable {names : List String}

/-- The rows of a user that the legacy resolution reads are among those of the cutover. -/
theorem rowsFor_migrated {user : User} (huser : db.users userID = some user)
    (hkind : user.kind ≠ .agent) (hrow : row ∈ rowsFor hash db userID names) :
    row ∈ (migratedRows db).filter fun row => row.userID = userID := by
  obtain ⟨hmem, hkeys⟩ := mem_filter.mp hrow
  obtain ⟨rfl, -⟩ := of_decide_eq_true hkeys
  simp [migratedRows, hmem, huser, hkind]

section Kept

variable {db : PersonalDatabase} {userID : Int} {snapshots : Snapshots}
  {personal : RealtimePricingConfig} {member : Option Organization} {user : User}
  {name : String}

theorem Agrees.rowsFor (hname : name ∈ names)
    (hashed : ∀ row ∈ migratedRows db, row.modelKey = hash row.model)
    (h : Agrees ((migratedRows db).filter fun row => row.userID = userID) personal name)
    (huser : db.users userID = some user) (hkind : user.kind ≠ .agent) :
    Agrees (rowsFor hash db userID names) personal name where
  listed channel item hitem := by
    obtain ⟨row, hrow, hmodel, hrest⟩ := h.listed channel item hitem
    obtain ⟨hmem, huserID⟩ := mem_filter.mp hrow
    refine ⟨row, mem_filter.mpr ⟨mem_of_mem_filter hmem, ?_⟩, hmodel, hrest⟩
    refine decide_eq_true ⟨of_decide_eq_true huserID, mem_map.mpr ⟨name, hname, ?_⟩⟩
    rw [hashed row hmem, hmodel]
  unlisted channel hnone row hrow :=
    h.unlisted channel hnone row (rowsFor_migrated huser hkind hrow)
  oneRatio row hrow other hother :=
    h.oneRatio row (rowsFor_migrated huser hkind hrow) other (rowsFor_migrated huser hkind hother)

section

variable (h : ordinarySnapshots hash db userID names = .ok snapshots)
include h

/-- The snapshot of an ordinary user; it is missing where no channel has an entry. -/
theorem ordinarySnapshots_spec (hname : name ∈ names) :
    ((snapshots name).map (·.agentUserID)).getD 0 = 0 ∧
    ∀ channel, ((snapshots name).bind fun s => s.channels.lookup channel) =
      (ordinaryChannels name (rowsFor hash db userID names)).lookup channel := by
  unfold ordinarySnapshots at h
  dsimp only at h
  split_ifs at h
  cases h
  by_cases hempty : ordinaryChannels name (rowsFor hash db userID names) = []
  · simp [hempty]
  · simp [hname, hempty]

theorem ordinarySnapshots_kept (hname : name ∈ names)
    (hagrees : Agrees (rowsFor hash db userID names) personal name)
    (horganization : organization.items = [])
    (channel : Int) :
    SameAt channel (snapshots name) (some (overlay personal organization member userID name
      (snapshots name))) := by
  obtain ⟨hagent, hlookup⟩ := ordinarySnapshots_spec h hname
  obtain ⟨hauthorized, hratios⟩ : authorizedChannel (some (overlay personal organization member
      userID name (snapshots name))) channel = true ∧ _ := overlay_ordinary hagent channel
  refine ⟨?_, ?_⟩
  · rw [hauthorized]
    cases hs : snapshots name with
    | none => rfl
    | some s =>
      rw [hs] at hagent
      simp only [Option.map_some, Option.getD_some] at hagent
      simp [authorizedChannel, hagent]
  · rw [hratios, ordinary_kept hagrees horganization, effectiveRatios_eq_map, hlookup]
    cases hprice : (ordinaryChannels name (rowsFor hash db userID names)).lookup channel with
    | none => rfl
    | some price =>
      obtain ⟨row, -, -, -, rfl⟩ := (ordinaryChannels_entries name _).sound channel price hprice
      rfl

end

theorem customerSnapshots_kept {agentUserID : Int}
    (h : customerSnapshots hash db userID agentUserID names = .ok snapshots)
    (hagent : 0 < agentUserID) (hname : name ∈ names)
    (hagrees : Agrees (rowsFor hash db userID names) personal name) (channel : Int) :
    SameAt channel (snapshots name) (some (overlay personal organization member userID name
      (snapshots name))) := by
  unfold customerSnapshots at h
  dsimp only at h
  split_ifs at h
  cases h
  simp only [hname, not_true, if_false]
  set s : PersonalPricingSnapshot :=
    { userID, model := name, revision := db.configRevision userID, agentUserID
      agentRevision := db.configRevision agentUserID
      channels := customerChannels name
        ((rowsFor hash db agentUserID names).filter (·.authorized))
        (rowsFor hash db userID names) }
  have hoverlay : ((overlay personal organization member userID name
      (some s)).channels.lookup channel).map (fun price =>
        (price.customerRatio, price.agentRatio)) = _ := overlay_customer hagent channel
  -- the ratio of each entry is that of its row
  have hkept : ((s.channels.lookup channel).map fun old =>
      ((resolveRealtimeChannel personal organization name channel).customerRatio, old.agentRatio)) =
      (s.channels.lookup channel).map fun old => (old.customerRatio, old.agentRatio) := by
    cases hlookup : s.channels.lookup channel with
    | none => rfl
    | some price =>
      obtain ⟨row, hrow, hmodel, rfl, grant, -, rfl⟩ :=
        (customerChannels_entries name _ _).sound channel price hlookup
      rw [Option.map_some, Option.map_some, hagrees.ratio organization hrow hmodel]
  rw [hkept] at hoverlay
  refine ⟨?_, ?_⟩
  · have hsome := congrArg Option.isSome hoverlay
    simp only [Option.isSome_map] at hsome
    simp only [authorizedChannel, hsome]
    rfl
  · rw [effectiveRatios_eq_map, effectiveRatios_eq_map, Option.bind_some, Option.bind_some,
      hoverlay]

section

variable {admission : Bool} (h : legacySnapshots hash db userID names admission = .ok snapshots)
include h

theorem legacySnapshots_cases :
    ∃ user, db.users userID = some user ∧ user.kind ≠ .agent ∧
      (ordinarySnapshots hash db userID names = .ok snapshots ∨
        ∃ agentUserID, 0 < agentUserID ∧ customerSnapshots hash db userID agentUserID names =
          .ok snapshots) := by
  unfold legacySnapshots at h
  split_ifs at h
  split at h
  · cases h
  rename_i user huser
  refine ⟨user, huser, ?_⟩
  split at h
  · cases h
  · rename_i hkind
    exact ⟨by simp [hkind], .inl h⟩
  · rename_i hkind
    refine ⟨by simp [hkind], .inr ?_⟩
    split at h
    · cases h
    rename_i agentUserID hagent
    refine ⟨agentUserID, ?_, h⟩
    unfold customerAgent at hagent
    split_ifs at hagent
    split at hagent
    · cases hagent
    split_ifs at hagent
    split at hagent
    · rename_i parent account hparent haccount
      split_ifs at hagent
      cases hagent
      exact db.user_pos _ parent hparent
    · cases hagent

theorem legacySnapshots_other (hname : name ∉ names) : snapshots name = none := by
  obtain ⟨user, -, -, h | ⟨agentUserID, -, h⟩⟩ := legacySnapshots_cases h
  · unfold ordinarySnapshots at h
    dsimp only at h
    split_ifs at h
    cases h
    simp [hname]
  · unfold customerSnapshots at h
    dsimp only at h
    split_ifs at h
    cases h
    simp [hname]

end

end Kept

theorem applyRealtimePricing_migrated (h : Activates hash db g) (hpos : 0 < userID)
    (hnames : names ≠ []) (snapshots : Snapshots) :
    applyRealtimePricing hash { db with realtime := migratedTables hash operator g db.realtime }
      userID names snapshots = .ok fun name =>
        if name ∉ names then none
        else some (overlay (migratedConfig hash operator g db.realtime userID names)
          { revision := 0, items := [] } (db.membership userID) userID name (snapshots name)) := by
  have hparses : ¬ (([] ++ (migratedConfig hash operator g db.realtime userID names).items).any
      fun item => decide (item.model ∈ names) && (parseRealtimePricingRatio item.ratio).isNone) =
        true := by
    rw [any_eq_true]
    rintro ⟨item, hitem, hbad⟩
    have hmem := ((mem_migratedConfig h).mp hitem).2
    obtain ⟨-, -, -, ratio, hvalid, htext, -⟩ := item_rows h hmem
    simp [htext, parse_format hvalid] at hbad
  unfold applyRealtimePricing
  rw [if_neg (by simp [migratedTables, hnames]), read_migrated h hpos, organizationRules_migrated h]
  dsimp only
  rw [if_neg hparses]

theorem prices_kept (hphase : db.realtime.phase = .frozen)
    (hactivates : Activates hash db g) (userID : Int) (names : List String) (admission : Bool) :
    SamePrices (loadPersonalPricings hash db userID names admission)
      (loadPersonalPricings hash
        { db with realtime := migratedTables hash operator g db.realtime }
        userID names admission) := by
  have hsame : legacySnapshots hash
      { db with realtime := migratedTables hash operator g db.realtime } userID names admission =
      legacySnapshots hash db userID names admission := rfl
  unfold loadPersonalPricings
  rw [hsame]
  cases hlegacy : legacySnapshots hash db userID names admission with
  | error e => exact .error e
  | ok snapshots =>
    have hbefore : applyRealtimePricing hash db userID names snapshots = .ok snapshots := by
      rw [applyRealtimePricing, if_pos (.inl (by simp [hphase]))]
    dsimp only
    rw [hbefore]
    by_cases hnames : names = []
    · rw [applyRealtimePricing, if_pos (.inr hnames)]
      exact .ok fun _ _ => ⟨rfl, rfl⟩
    obtain ⟨user, huser, hkind, hcases⟩ := legacySnapshots_cases hlegacy
    rw [applyRealtimePricing_migrated hactivates (db.user_pos _ _ huser) hnames]
    refine .ok fun name channel => ?_
    by_cases hname : name ∈ names
    · simp only [hname]
      have hagrees : Agrees (rowsFor hash db userID names)
          (migratedConfig hash operator g db.realtime userID names) name :=
        (migratedConfig_agrees hactivates hname).rowsFor hname hactivates.grouped.hashed huser hkind
      rcases hcases with h | ⟨agentUserID, hagent, h⟩
      · exact ordinarySnapshots_kept h hname hagrees rfl channel
      · exact customerSnapshots_kept h hagent hname hagrees channel
    · simp [hname, legacySnapshots_other hlegacy]

/-- In every database that the operations lead to, an activation without conflicts changes no price:
    every user keeps, for every list of models, the same error or the same authorized channels with
    the same ratios.  An activation that reports conflicts changes nothing. -/
theorem cutover_keeps_prices (operator : Int) {db db' : PersonalDatabase}
    {conflicts : List RealtimeMigrationConflict} (hdb : Reachable hash snapshotSize db)
    (h : migrateRealtimePricing hash operator .activate db = .ok (conflicts, db')) :
    (conflicts = [] → db'.realtime.phase = .active ∧ ∀ userID names admission,
      SamePrices (loadPersonalPricings hash db userID names admission)
        (loadPersonalPricings hash db' userID names admission)) ∧
    (conflicts ≠ [] → db' = db) := by
  cases migrated_of_ok h with
  | refused phase rows hconflicts => exact ⟨fun hnone => absurd hnone hconflicts, fun _ => rfl⟩
  | @activated g phase rows hconflicts =>
    refine ⟨fun _ => ⟨rfl, fun userID names admission => ?_⟩, fun hne => absurd rfl hne⟩
    obtain ⟨hheads, hrules, -⟩ := reachable_untouched hdb (by simp [phase])
    have hg : Grouped hash (migratedRows db) g := groupRows_grouped rows grouped_nil
    exact prices_kept phase ⟨hg, hconflicts, hheads, hrules⟩ userID names admission

/-- A matrix with an ordinary user, a customer and its agent: equal ratios, a row at the standard
    price, a row that is not authorized. -/
def sampleMatrix : PersonalDatabase where
  users id :=
    if id = 1 then some { kind := .ordinary, enabled := true, root := true }
    else if id = 2 then some { kind := .ordinary, enabled := true, root := false }
    else if id = 3 then some { kind := .agentCustomer, enabled := true, root := false }
    else if id = 4 then some { kind := .agent, enabled := true, root := false }
    else none
  identities id :=
    if id = 3 then some { kind := .agentCustomer, activated := true, agentUserID := 4
                          agentDisabled := false }
    else none
  accounts id := if id = 4 then some { enabled := true, balance := 10, reserved := 0 } else none
  configRevision _ := 1
  configs :=
    [⟨2, "m", "m", 5, false, 500000, by decide⟩, ⟨2, "m", "m", 6, false, 500000, by decide⟩,
     ⟨2, "n", "n", 5, false, 1000000, by decide⟩, ⟨3, "m", "m", 5, true, 1200000, by decide⟩,
     ⟨3, "m", "m", 6, false, 1200000, by decide⟩, ⟨4, "m", "m", 5, true, 900000, by decide⟩]
  membership _ := none
  realtime := { phase := .legacy, heads := fun _ => none, rules := [], history := [] }
  user_pos id user h := by
    by_contra hle
    have h1 : id ≠ 1 := by omega
    have h2 : id ≠ 2 := by omega
    have h3 : id ≠ 3 := by omega
    have h4 : id ≠ 4 := by omega
    simp [h1, h2, h3, h4] at h
  configs_unique := by
    simp [ResellerModelConfig.SameKey]

/-- After a freeze its activation reports no conflict. -/
theorem sampleMatrix_kept : ∃ frozen active,
    migrateRealtimePricing id 1 .freeze sampleMatrix = .ok ([], frozen) ∧
    migrateRealtimePricing id 1 .activate frozen = .ok ([], active) ∧
    active.realtime.rules.length = 3 ∧ active.realtime.phase = .active ∧
    ∀ userID names admission, SamePrices (loadPersonalPricings id frozen userID names admission)
      (loadPersonalPricings id active userID names admission) := by
  refine ⟨_, _, rfl, rfl, rfl, ?_⟩
  have hfresh : Reachable id (fun _ => 0) sampleMatrix := .fresh _ rfl rfl rfl rfl
  have hfrozen := @Reachable.migrate id (fun _ => 0) sampleMatrix _ hfresh 1 .freeze [] rfl
  exact (cutover_keeps_prices 1 hfrozen rfl).1 rfl

end TokenGateway.Realtime
