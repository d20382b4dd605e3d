import TokenGateway.Realtime.Rules

namespace TokenGateway.Realtime

/-!
# Personal prices and their cutover

`model/reseller_pricing.go` (`loadPersonalPricings`): what a user pays on each channel, from the
rows of the legacy matrix, and after the cutover from realtime rules.  `model/realtime_pricing.go`
(`applyRealtimePricingTx`, `MigrateRealtimePricing`): the overlay and the cutover itself.

* `ResellerModelConfig`, `PersonalDatabase` — the legacy rows and the tables around them; their
  fields carry what the writers guarantee;
* `legacySnapshots` — the legacy resolution;
* `applyRealtimePricing` — the overlay by rules;
* `loadPersonalPricings` — both;
* `migrateRealtimePricing` — freeze, resume and activate.
-/

/-! ### Tables -/

inductive ResellerKind where
  | ordinary | agent | agentCustomer
  deriving DecidableEq

structure User where
  kind : ResellerKind
  (enabled root : Bool)

structure ResellerIdentity where
  kind : ResellerKind
  /-- `Activation == "active"`. -/
  activated : Bool
  agentUserID : Int
  agentDisabled : Bool

structure ResellerAccount where
  enabled : Bool
  (balance reserved : Int)

/-- A row of the legacy matrix.  `SaveResellerConfig` takes positive channels only. -/
structure ResellerModelConfig where
  userID : Int
  (modelKey model : String)
  channelID : Int
  authorized : Bool
  ratio : Int
  channel_pos : 0 < channelID

/-- The unique index `reseller_config_key`. -/
def ResellerModelConfig.SameKey (a b : ResellerModelConfig) : Prop :=
  a.userID = b.userID ∧ a.modelKey = b.modelKey ∧ a.channelID = b.channelID

/-- The channel discounts of an organization, which realtime rules replace. -/
structure OrganizationDiscountSnapshot where
  snapshotID : Int
  channelDiscounts : List (Int × Int)
  deriving DecidableEq

structure Organization where
  id : Int
  /-- The snapshot that `CurrentDiscountSnapshotId` names. -/
  discount : Option OrganizationDiscountSnapshot
  id_pos : 0 < id

structure PersonalDatabase where
  users : Int → Option User
  identities : Int → Option ResellerIdentity
  accounts : Int → Option ResellerAccount
  /-- The revision of a legacy configuration. -/
  configRevision : Int → Int
  configs : List ResellerModelConfig
  /-- The organization of the user's current membership; the unique `CurrentKey` allows one. -/
  membership : Int → Option Organization
  realtime : RealtimeTables
  user_pos : ∀ id user, users id = some user → 0 < id
  configs_unique : configs.Pairwise fun a b => ¬ a.SameKey b

/-! ### Snapshots -/

structure PersonalChannelPrice where
  (customerRatio agentRatio : Int)
  source : String := ""
  revision : Int := 0
  deriving DecidableEq

structure RealtimePricingContext where
  (organizationID userRevision organizationRevision : Int)
  legacyDiscount : Option OrganizationDiscountSnapshot
  deriving DecidableEq

structure PersonalPricingSnapshot where
  userID : Int
  agentUserID : Int := 0
  model : String
  (revision agentRevision : Int := 0)
  channels : List (Int × PersonalChannelPrice) := []
  realtime : Option RealtimePricingContext := none

def setPrice (channels : List (Int × PersonalChannelPrice)) (channel : Int)
    (price : PersonalChannelPrice) : List (Int × PersonalChannelPrice) :=
  (channel, price) :: channels.filter fun entry => entry.1 ≠ channel

/-- The snapshots of some models. -/
abbrev Snapshots := String → Option PersonalPricingSnapshot

variable (hash : String → String)

/-! ### The legacy resolution -/

/-- A row that a query by hashes returned belongs to one of the models asked for. -/
def rowMatches (names : List String) (row : ResellerModelConfig) : Bool :=
  decide (row.model ∈ names) && hash row.model == row.modelKey

/-- A ratio of the legacy matrix. -/
def legacyRatio (ratio : Int) : Bool := decide (1 ≤ ratio ∧ ratio ≤ 2 * resellerRatioScale)

variable (db : PersonalDatabase) (userID : Int)

/-- The rows of a user for some models. -/
def rowsFor (names : List String) : List ResellerModelConfig :=
  db.configs.filter fun row => row.userID = userID ∧ row.modelKey ∈ names.map hash

/-- The channels of an ordinary user: rows at the standard price are left out. -/
def ordinaryChannels (name : String) (own : List ResellerModelConfig) :
    List (Int × PersonalChannelPrice) :=
  own.foldl (fun channels row =>
    if row.model = name ∧ row.ratio ≠ resellerRatioScale then
      setPrice channels row.channelID
        { customerRatio := row.ratio, agentRatio := resellerRatioScale }
    else channels) []

def ordinarySnapshots (names : List String) : Except PricingError Snapshots :=
  let own := rowsFor hash db userID names
  if own.any fun row => !rowMatches hash names row || !legacyRatio row.ratio then .error .corrupt
  else .ok fun name =>
    let channels := ordinaryChannels name own
    if name ∉ names ∨ channels = [] then none
    else some { userID, model := name, revision := db.configRevision userID, channels }

/-- The grant of the agent for a row of its customer. -/
def grantFor (grants : List ResellerModelConfig) (row : ResellerModelConfig) :
    Option ResellerModelConfig :=
  grants.reverse.find? fun grant => grant.model = row.model ∧ grant.channelID = row.channelID

/-- The row is authorized on both sides. -/
def authorizedBy (grants : List ResellerModelConfig) (row : ResellerModelConfig) :
    Option ResellerModelConfig :=
  if row.authorized then grantFor grants row else none

/-- The channels of a customer: those that its agent may use as well, at both prices. -/
def customerChannels (name : String) (grants own : List ResellerModelConfig) :
    List (Int × PersonalChannelPrice) :=
  own.foldl (fun channels row =>
    match authorizedBy grants row with
    | none => channels
    | some grant =>
      if row.model = name then
        setPrice channels row.channelID { customerRatio := row.ratio, agentRatio := grant.ratio }
      else channels) []

def customerSnapshots (userID agentUserID : Int) (names : List String) :
    Except PricingError Snapshots :=
  let own := rowsFor hash db userID names
  let grants := (rowsFor hash db agentUserID names).filter (·.authorized)
  if grants.any fun row => !rowMatches hash names row then .error .corrupt
  else if own.any fun row => !rowMatches hash names row ||
      (match authorizedBy grants row with
        | none => false
        | some grant => !legacyRatio row.ratio || !legacyRatio grant.ratio) then .error .corrupt
  else .ok fun name =>
    if name ∉ names then none
    else some { userID, model := name, revision := db.configRevision userID, agentUserID
                agentRevision := db.configRevision agentUserID
                channels := customerChannels name grants own }

/-- The checks of an agent customer's identity: the id of its agent. -/
def customerAgent (user : User) (admission : Bool) : Except PricingError Int :=
  if ¬ user.enabled then .error .forbidden
  else
    match db.identities userID with
    | none => .error .forbidden
    | some identity =>
      if identity.kind ≠ .agentCustomer ∨ ¬ identity.activated then .error .forbidden
      else if identity.agentDisabled then .error .customerDisabled
      else
        match db.users identity.agentUserID, db.accounts identity.agentUserID with
        | some parent, some account =>
          if ¬ parent.enabled ∨ ¬ account.enabled then .error .agentDisabled
          else if admission ∧ account.balance ≤ account.reserved then
            .error .procurementInsufficient
          else .ok identity.agentUserID
        | _, _ => .error .notFound

/-- `loadPersonalPricings` before the overlay. -/
def legacySnapshots (names : List String) (admission : Bool) : Except PricingError Snapshots :=
  -- two names with one hash
  if names.any fun a => names.any fun b => hash a == hash b && a != b then .error .corrupt
  else
    match db.users userID with
    | none => .error .notFound
    | some user =>
      match user.kind with
      | .agent => .error .forbidden
      | .ordinary => ordinarySnapshots hash db userID names
      | .agentCustomer =>
        match customerAgent db userID user admission with
        | .error e => .error e
        | .ok agentUserID => customerSnapshots hash db userID agentUserID names

/-! ### The overlay -/

/-- The first item of a configuration for a channel of a model. -/
def itemFor (config : RealtimePricingConfig) (model : String) (channel : Int) :
    Option RealtimePricingItem :=
  config.items.find? fun item => item.model = model ∧ channel ∈ item.channelIDs

variable (personal organization : RealtimePricingConfig)

def resolveRealtimeChannel (model : String) (channel : Int) : PersonalChannelPrice :=
  match itemFor personal model channel with
  | some item =>
    { customerRatio := (parseRealtimePricingRatio item.ratio).getD 0
      agentRatio := resellerRatioScale, source := "user", revision := personal.revision }
  | none =>
    match itemFor organization model channel with
    | some item =>
      { customerRatio := (parseRealtimePricingRatio item.ratio).getD 0
        agentRatio := resellerRatioScale, source := "organization"
        revision := organization.revision }
    | none =>
      { customerRatio := resellerRatioScale, agentRatio := resellerRatioScale
        source := "system" }

/-- The channels of all rules for a model. -/
def realtimeChannels (name : String) : List (Int × PersonalChannelPrice) :=
  ((organization.items ++ personal.items).filter (·.model = name)).foldl (fun channels item =>
    item.channelIDs.foldl (fun channels id =>
      setPrice channels id (resolveRealtimeChannel personal organization name id)) channels) []

/-- The overlay of one snapshot.  A customer keeps its channels and its agent's prices. -/
def overlay (member : Option Organization)
    (userID : Int) (name : String) (snapshot : Option PersonalPricingSnapshot) :
    PersonalPricingSnapshot :=
  let snapshot := snapshot.getD { userID, model := name }
  let channels := realtimeChannels personal organization name
  let channels :=
    if 0 < snapshot.agentUserID then
      snapshot.channels.map fun (id, old) =>
        let price := (channels.lookup id).getD
          { customerRatio := resellerRatioScale, agentRatio := 0, source := "system" }
        (id, { price with agentRatio := old.agentRatio })
    else channels
  { snapshot with
    channels
    realtime := some { organizationID := (member.map (·.id)).getD 0
                       userRevision := personal.revision
                       organizationRevision := organization.revision
                       legacyDiscount := member.bind (·.discount) } }

/-- The rules of the user's organization. -/
def organizationRules (names : List String) : Except PricingError RealtimePricingConfig :=
  match db.membership userID with
  | none => .ok { revision := 0, items := [] }
  | some member => readRealtimePricing hash db.realtime (.organization, member.id) names

/-- `applyRealtimePricingTx`. -/
def applyRealtimePricing (names : List String)
    (snapshots : Snapshots) : Except PricingError Snapshots :=
  if db.realtime.phase ≠ .active ∨ names = [] then .ok snapshots
  else
    match readRealtimePricing hash db.realtime (.user, userID) names with
    | .error e => .error e
    | .ok personal =>
      match organizationRules hash db userID names with
      | .error e => .error e
      | .ok organization =>
        if (organization.items ++ personal.items).any fun item =>
            decide (item.model ∈ names) && (parseRealtimePricingRatio item.ratio).isNone then
          .error .invalid
        else .ok fun name =>
          if name ∉ names then none
          else some (overlay personal organization (db.membership userID) userID name
            (snapshots name))

def loadPersonalPricings (names : List String) (admission : Bool) : Except PricingError Snapshots :=
  match legacySnapshots hash db userID names admission with
  | .error e => .error e
  | .ok snapshots => applyRealtimePricing hash db userID names snapshots

/-- The channel may be used: only a customer of an agent is restricted. -/
def authorizedChannel (snapshot : Option PersonalPricingSnapshot) (channel : Int) : Bool :=
  match snapshot with
  | none => true
  | some s => decide (s.agentUserID ≤ 0) || (s.channels.lookup channel).isSome

/-- The ratios of a channel, customer's and agent's; a channel without an entry has the standard
    price. -/
def effectiveRatios (snapshot : Option PersonalPricingSnapshot) (channel : Int) : Int × Int :=
  match snapshot.bind fun s => s.channels.lookup channel with
  | some price => (price.customerRatio, price.agentRatio)
  | none => (resellerRatioScale, resellerRatioScale)

/-! ### The cutover -/

structure RealtimeMigrationConflict where
  channelID : Int
  ratio : String
  userID : Int
  (model reason : String)

variable (row : ResellerModelConfig)

def conflictOf (reason : String) : RealtimeMigrationConflict where
  channelID := row.channelID
  ratio := formatPersonalRatio row.ratio
  userID := row.userID
  model := row.model
  reason := reason

/-- The loop over the rows: the conflicts, and the item of each user and model.  The keys are listed
    in the order of their first rows. -/
structure Grouping where
  conflicts : List RealtimeMigrationConflict := []
  keys : List (Int × String) := []
  items : Int × String → Option RealtimePricingItem := fun _ => none

def ratioConflicts : List RealtimeMigrationConflict :=
  if ValidRatio row.ratio then []
  else [conflictOf row "ratio must be in (0, 5] with at most two decimal places"]

def groupConflicts :
    Option RealtimePricingItem → List RealtimeMigrationConflict
  | none => []
  | some item =>
    if item.ratio = formatPersonalRatio row.ratio then []
    else [conflictOf row "multiple ratios for one model"]

variable (g : Grouping)

def addRow (row : ResellerModelConfig) : Grouping :=
  let key := (row.userID, row.model)
  let item := g.items key
  { conflicts := g.conflicts ++ ratioConflicts row ++ groupConflicts row item
    keys := if item.isSome then g.keys else g.keys ++ [key]
    items := Function.update g.items key (some
      { model := row.model, ratio := formatPersonalRatio row.ratio
        channelIDs := (item.map (·.channelIDs)).getD [] ++ [row.channelID] }) }

def groupRows : Grouping → List ResellerModelConfig → Except PricingError Grouping
  | g, [] => .ok g
  | g, row :: rest =>
    if row.modelKey ≠ hash row.model then .error .corrupt else groupRows (addRow g row) rest

/-- The items of a user, by model. -/
def Grouping.itemsOf (userID : Int) : List RealtimePricingItem :=
  ((g.keys.filter (·.1 = userID)).filterMap g.items).insertionSort fun a b => a.model ≤ b.model

def Grouping.users : List Int := (g.keys.map (·.1)).dedup

def ruleOfItem (item : RealtimePricingItem) : RealtimePricingRule where
  key := (.user, userID)
  modelKey := hash item.model
  model := item.model
  ratio := (parseRealtimePricingRatio item.ratio).getD 0
  channels := item.channelIDs

/-- The rules, heads and first revisions of all users. -/
def migratedTables (operator : Int) (g : Grouping) (t : RealtimeTables) : RealtimeTables where
  phase := .active
  heads key := if key.1 = .user ∧ key.2 ∈ g.users then some 1 else t.heads key
  rules := t.rules ++ g.users.flatMap fun id => (g.itemsOf id).map (ruleOfItem hash id)
  history := t.history ++ g.users.map fun id =>
    { key := (.user, id), revision := 1, operatorID := operator, snapshot := g.itemsOf id }

/-- The inserts violate no unique index: a rule is unique for its subject and the hash of its model,
    a head for its subject, a history entry for its subject and revision. -/
def insertsUnique (t : RealtimeTables) : Bool :=
  g.users.all fun id =>
    let keys := (g.itemsOf id).map fun item => hash item.model
    decide keys.Nodup &&
    (t.rules.all fun rule => ¬ (rule.key = (.user, id) ∧ rule.modelKey ∈ keys)) &&
    (t.heads (.user, id)).isNone &&
    (t.history.all fun entry => ¬ (entry.key = (.user, id) ∧ entry.revision = 1))

inductive MigrationAction where
  | freeze | resume | activate
  deriving DecidableEq

/-- `MigrateRealtimePricing`: the conflicts and the database after the transaction. -/
def migrateRealtimePricing (operator : Int) (action : MigrationAction) (db : PersonalDatabase) :
    Except PricingError (List RealtimeMigrationConflict × PersonalDatabase) :=
  match db.users operator with
  | none => .error .notFound
  | some actor =>
    if ¬ actor.root ∨ actor.kind ≠ .ordinary ∨ ¬ actor.enabled then .error .forbidden
    else
      match action, db.realtime.phase with
      | .freeze, .legacy => .ok ([], { db with realtime := { db.realtime with phase := .frozen } })
      | .resume, .frozen => .ok ([], { db with realtime := { db.realtime with phase := .legacy } })
      | .activate, .frozen =>
        let old := db.configs.filter fun row => match db.users row.userID with
          | some user => user.kind ≠ .agent
          | none => false
        match groupRows hash {} old with
        | .error e => .error e
        | .ok g =>
          if g.conflicts ≠ [] then .ok (g.conflicts, db)
          else if ¬ insertsUnique hash g db.realtime then .error .database
          else .ok ([], { db with realtime := migratedTables hash operator g db.realtime })
      | _, _ => .error .conflict

end TokenGateway.Realtime
