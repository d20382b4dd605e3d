import TokenGateway.Base.Table
import TokenGateway.Expression.Host

namespace TokenGateway.Channels

open Base
open Expression (trimSpace trimText)

/-!
# Channels and abilities

`model/channel.go`, `model/ability.go` and `model/seedance_enhance.go`, as far as routing and the
status of channels need them.  JSON columns appear as their decoded values.

* `Channel`, `Ability` — the rows;
* `Channel.getRoutingModels` — the models a channel is routed for;
* `Channel.addAbilities` — the ability rows of a channel;
* `Channel.Serves` — what an exact routing index lists.
-/

/-! ### Texts -/

/-- `strings.Split` at one character. -/
def splitChars (sep : Char) : List Char → List (List Char)
  | [] => [[]]
  | c :: rest =>
    if c = sep then [] :: splitChars sep rest
    else
      match splitChars sep rest with
      | [] => [[c]]
      | first :: more => (c :: first) :: more

def split (sep : Char) (s : String) : List String := (splitChars sep s.toList).map String.ofList

def cutSuffix (s suffix : String) : Option String :=
  if suffix.toList <:+ s.toList then some (String.ofList (s.toList.take (s.length - suffix.length)))
  else none

/-! ### Rows -/

inductive ChannelStatus where
  | unknown | enabled | manuallyDisabled | autoDisabled
  deriving DecidableEq

inductive MultiKeyMode where
  | random | polling | other
  deriving DecidableEq

/-- The column `channel_info`; a key without an entry is enabled, so a nil map is an empty one. -/
structure ChannelInfo where
  isMultiKey : Bool := false
  multiKeyStatusList : List (Nat × ChannelStatus) := []
  multiKeyPollingIndex : Int := 0
  multiKeyMode : MultiKeyMode := .random
  deriving DecidableEq

/-- The column `setting`. -/
structure ChannelSettings where
  taskPluginKey : String := ""
  taskExtendPluginKeys : List String := []
  responsesWebSocketEnabled : Bool := false
  videoUpstreamProtocol : String := ""
  deriving DecidableEq

/-- `video_enhance` of the column `setting`. -/
structure ChannelConfig where
  enabled : Bool := false
  supplier : String := ""
  deriving DecidableEq

structure AdvancedCustomRoute where
  incomingPath : String
  models : List String := []
  converter : String := ""
  deriving DecidableEq

structure Channel where
  id : Int
  type : Nat := 0
  key : String := ""
  status : ChannelStatus := .enabled
  weight : Option Nat := none
  models : String := ""
  group : String := "default"
  priority : Option Int := none
  setting : ChannelSettings := {}
  /-- Nothing, if `video_enhance` cannot be decoded. -/
  videoEnhance : Option ChannelConfig := some {}
  /-- The routes of `AdvancedCustom`, if there are any. -/
  advancedCustom : Option (List AdvancedCustomRoute) := none
  /-- `status_reason` of the column `other_info`. -/
  statusReason : Option String := none
  channelInfo : ChannelInfo := {}

structure Ability where
  (group model : String)
  channelId : Int
  enabled : Bool
  priority : Option Int
  weight : Nat

abbrev ChannelTable := Table Channel Channel.id

structure Database where
  channels : ChannelTable
  abilities : List Ability

/-! ### Video enhancement -/

namespace Seedance

def suffix : String := "-enhance"

def models : List String :=
  ["doubao-seedance-2-0-260128", "doubao-seedance-2-0-fast-260128",
    "doubao-seedance-2-0-mini-260615", "doubao-seedance-2-5-260628"]

/-- `BaseModel`: the model that is enhanced. -/
def baseModel (model : String) : Option String := (cutSuffix model suffix).filter models.contains

end Seedance

/-- `Validate`. -/
def ChannelConfig.valid (c : ChannelConfig) : Bool :=
  (c.supplier == "" || c.supplier == "volcengine" || c.supplier == "runyyitd") &&
    !(c.enabled && c.supplier == "")

namespace Channel

variable (channel : Channel)

def getPriority : Int := channel.priority.getD 0

def getWeight : Nat := channel.weight.getD 0

/-- The groups of the column `group`. -/
def groups : List String := split ',' channel.group

def getModels : List String :=
  if channel.models = "" then [] else split ',' (trimText (· == ',') channel.models)

/-- `SeedanceEnhanceConfig`; nothing is an error. -/
def seedanceEnhanceConfig : Option ChannelConfig := channel.videoEnhance.filter ChannelConfig.valid

/-- `GetRoutingModels`: an enhanced name is offered by the channels with enhancement, never
    listed. -/
def getRoutingModels : List String :=
  channel.getModels.flatMap fun name =>
    if (Seedance.baseModel name).isSome then []
    else if channel.seedanceEnhanceConfig.any ChannelConfig.enabled ∧
      Seedance.models.contains name then
      [name, name ++ Seedance.suffix]
    else [name]

/-! ### Abilities -/

/-- The row for a pair of a model and a group. -/
def ability (model group : String) : Ability where
  group := group
  model := model
  channelId := channel.id
  enabled := channel.status = .enabled
  priority := channel.priority
  weight := channel.getWeight

/-- The loop of `AddAbilities`: of two pairs with one key, the first is kept.  The keys that have
    been seen are `abilitySet`. -/
def keepPairs : List (String × String) → List String → List (String × String)
  | [], _ => []
  | (model, group) :: rest, abilitySet =>
    let key := group ++ "|" ++ model
    if key ∈ abilitySet then keepPairs rest abilitySet
    else (model, group) :: keepPairs rest (key :: abilitySet)

/-- The pairs of a model and a group that get a row. -/
def abilityPairs : List (String × String) :=
  keepPairs (channel.getRoutingModels.flatMap fun model => channel.groups.map (model, ·)) []

def addAbilities : List Ability :=
  channel.abilityPairs.map fun pair => channel.ability pair.1 pair.2

/-- The channel is enabled, and it lists the group and the model. -/
def Serves (group model : String) : Prop :=
  channel.status = .enabled ∧ group ∈ channel.groups ∧ model ∈ channel.getRoutingModels

instance (group model : String) : Decidable (channel.Serves group model) :=
  inferInstanceAs (Decidable (_ ∧ _ ∧ _))

end Channel

end TokenGateway.Channels
