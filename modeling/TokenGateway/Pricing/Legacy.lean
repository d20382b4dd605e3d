import Mathlib.Algebra.Order.Floor.Ring
import Mathlib.Data.Rat.Floor
import TokenGateway.Pricing.TokenParams

namespace TokenGateway.Pricing

/-!
# Settlement by ratios

`service/text_quota.go` (`calculateTextQuotaSummary`) for a model priced by ratios, in exact
arithmetic, with the prices that `relay/helper/price.go` takes from the configuration.

* `PricingSettings`, `Ratios` — the configuration of the process and of a model;
* `textQuota` — the amount of a usage record before request ratios, surcharges and rounding.

The amount is what `quotaCalculateDecimal` holds before `ApplyOtherRatiosToDecimal`; the charge of
at least one unit and the conversion to an integer come after it.
-/

/-! ### Configuration -/

/-- The settings of the process that pricing reads. -/
structure PricingSettings where
  /-- `common.QuotaPerUnit`. -/
  quotaPerUnit : ℚ
  /-- `GetGeminiInputAudioPricePerMillionTokens`; 0 for other models. -/
  geminiAudioPrice : String → ℚ

/-- The ratios of a model with their defaults filled in. -/
structure Ratios where
  (modelRatio completionRatio cacheRatio createCacheRatio imageRatio : ℚ)

variable (settings : PricingSettings) (name : String)

/-- `claudeCacheCreation1hMultiplier`, `6 / 3.75`. -/
def claudeCacheCreation1hMultiplier : ℚ := 8 / 5

/-! ### The request -/

/-- `RelayInfo`, as far as the settlement reads it. -/
structure RelayInfo where
  /-- `GetFinalRequestRelayFormat() == RelayFormatClaude`. -/
  claudeFormat : Bool
  /-- `ChannelType == ChannelTypeOpenRouter`. -/
  openRouter : Bool
  /-- `PriceData.GroupRatioInfo.GroupRatio`. -/
  groupRatio : ℚ
  /-- `hasCustomModelRatio`. -/
  customModelRatio : Bool

/-- A usage record with the fields that only this settlement reads. -/
structure TextUsage extends Usage where
  usageSource : String := ""
  cost : ℚ := 0

def usageSemanticFromUsage (relay : RelayInfo) (usage : Usage) : UsageSemantic :=
  if usage.usageSemantic ≠ .unset then usage.usageSemantic
  else if relay.claudeFormat then .anthropic else .openai

def isClaudeUsageSemantic (relay : RelayInfo) (usage : Usage) : Bool :=
  usageSemanticFromUsage relay usage == .anthropic

/-- OpenAI counts derived from a Claude response, without a semantic of their own. -/
def isLegacyClaudeDerivedOpenAIUsage (relay : RelayInfo) (usage : TextUsage) : Bool :=
  !relay.claudeFormat && usage.usageSource == "" && usage.usageSemantic == .unset &&
    (decide (0 < usage.claudeCacheCreation5mTokens) ||
      decide (0 < usage.claudeCacheCreation1hTokens))

/-! ### OpenRouter -/

/-- `math.Round`: half away from zero. -/
def roundAway (q : ℚ) : Int := if 0 ≤ q then ⌊q + 1 / 2⌋ else ⌈q - 1 / 2⌉

variable (ratios : Ratios)

/-- `CalcOpenRouterCacheCreateTokens`: the cache writes that explain the upstream cost. -/
def calcOpenRouterCacheCreateTokens (usage : TextUsage) : Int :=
  if ratios.createCacheRatio = 1 then 0
  else
    let quotaPrice := ratios.modelRatio / settings.quotaPerUnit
    let promptCacheCreatePrice := quotaPrice * ratios.createCacheRatio
    let promptCacheReadPrice := quotaPrice * ratios.cacheRatio
    let completionPrice := quotaPrice * ratios.completionRatio
    let value := (usage.cost - usage.promptTokens * quotaPrice
        + usage.promptTokensDetails.cachedTokens * (quotaPrice - promptCacheReadPrice)
        - usage.completionTokens * completionPrice) / (promptCacheCreatePrice - quotaPrice)
    let quota := roundAway value
    if 2 ^ 31 - 1 < quota ∨ quota < -2 ^ 31 then -1 else quota

/-- The cache creation tokens and the prompt tokens that the settlement counts. -/
def countedTokens (relay : RelayInfo) (usage : TextUsage) : Int × Int :=
  let creation := usage.promptTokensDetails.cacheCreationTokensTotal
  if relay.openRouter && isClaudeUsageSemantic relay usage.toUsage then
    let prompt := usage.promptTokens - usage.promptTokensDetails.cachedTokens
    let derived := calcOpenRouterCacheCreateTokens settings ratios usage
    let creation :=
      if creation = 0 ∧ ratios.createCacheRatio ≠ 1 ∧ usage.cost ≠ 0 ∧ ¬ relay.customModelRatio ∧
          0 ≤ derived ∧ derived ≤ prompt then derived
      else creation
    (creation, prompt - creation)
  else (creation, usage.promptTokens)

/-! ### The amount -/

/-- The audio tokens with a price of their own: those of a Gemini model. -/
def audioApart (usage : Usage) : Int :=
  if usage.promptTokensDetails.audioTokens ≠ 0 ∧ 0 < settings.geminiAudioPrice name then
    usage.promptTokensDetails.audioTokens
  else 0

/-- `cachedCreationTokensWithRatio`, with the lifetimes that Claude counts report. -/
def creationWithRatio (usage : Usage) (creation : Int) (claude : Bool) : ℚ :=
  let tokens5m := usage.claudeCacheCreation5mTokens
  let tokens1h := usage.claudeCacheCreation1hTokens
  if creation ≠ 0 ∨ 0 < tokens5m ∨ 0 < tokens1h then
    if claude then
      let remaining := max (creation - tokens5m - tokens1h) 0
      remaining * ratios.createCacheRatio + tokens5m * ratios.createCacheRatio
        + tokens1h * (ratios.createCacheRatio * claudeCacheCreation1hMultiplier)
    else creation * ratios.createCacheRatio
  else 0

/-- `baseTokens`: the prompt without the categories that are charged apart, never negative. -/
def baseTokens (usage : Usage) (prompt creation : Int) (claude : Bool) : Int :=
  let cached := if claude then 0 else usage.promptTokensDetails.cachedTokens
  let created := if claude then 0 else creation
  max (prompt - cached - created - usage.promptTokensDetails.imageTokens -
    audioApart settings name usage) 0

/-- `calculateTextQuotaSummary`: the amount for a model priced by ratios. -/
def textQuota (relay : RelayInfo) (usage : TextUsage) : ℚ :=
  let (creation, prompt) := countedTokens settings ratios relay usage
  -- both kinds of Claude counts report cache traffic apart from the prompt
  let claude := isClaudeUsageSemantic relay usage.toUsage ||
    isLegacyClaudeDerivedOpenAIUsage relay usage
  let promptQuota := baseTokens settings name usage.toUsage prompt creation claude
    + usage.promptTokensDetails.cachedTokens * ratios.cacheRatio
    + usage.promptTokensDetails.imageTokens * ratios.imageRatio
    + creationWithRatio ratios usage.toUsage creation claude
  let completionQuota := usage.completionTokens * ratios.completionRatio
  let audioInputQuota := settings.geminiAudioPrice name / 1000000
    * audioApart settings name usage.toUsage * relay.groupRatio * settings.quotaPerUnit
  (promptQuota + completionQuota) * (ratios.modelRatio * relay.groupRatio) + audioInputQuota

end TokenGateway.Pricing
