import Mathlib.Tactic.Ring
import Mathlib.Tactic.SplitIfs
import Mathlib.Order.Lattice

namespace TokenGateway.Pricing

/-!
# The token counts of an expression

`service/tiered_settle.go` (`BuildTieredTokenParams`) and the usage record it reads
(`relaykit/dto/openai_response.go`).  `p` and `c` are what remains of the input and the output
after the categories that the expression prices by a variable of their own.

* `buildTieredTokenParams` — the counts of all variables;
* `TokensPartitioned` — every token is priced once;
* `tokens_partitioned_iff` — exactly when it is;
* `creation_tokens_lost` — Anthropic cache writes that no variable prices.

Counts are integers: a `float64` holds every count below `2 ^ 53` exactly, and their sums and
differences here.
-/

/-! ### Usage records -/

inductive UsageSemantic where
  | unset
  | openai
  | anthropic
  | gemini
  deriving DecidableEq

/-- `CachedTokenDetails`: subsets of the cached tokens, as far as reported. -/
structure CachedTokenDetails where
  (textTokens imageTokens audioTokens : Option Int := none)
  deriving DecidableEq

structure InputTokenDetails where
  cachedTokens : Int := 0
  cachedTokensDetails : Option CachedTokenDetails := none
  (cachedCreationTokens cacheWriteTokens audioTokens imageTokens : Int := 0)
  deriving DecidableEq

structure OutputTokenDetails where
  (audioTokens imageTokens : Int := 0)
  deriving DecidableEq

/-- `dto.Usage`, as far as billing by expression reads it. -/
structure Usage where
  (promptTokens completionTokens : Int)
  usageSemantic : UsageSemantic := .unset
  promptTokensDetails : InputTokenDetails := {}
  completionTokenDetails : OutputTokenDetails := {}
  (claudeCacheCreation5mTokens claudeCacheCreation1hTokens : Int := 0)
  deriving DecidableEq

/-- `CacheCreationTokensTotal`: the larger of the two fields, and never negative. -/
def InputTokenDetails.cacheCreationTokensTotal (d : InputTokenDetails) : Int :=
  let total := max d.cacheWriteTokens d.cachedCreationTokens
  if total < 0 then 0 else total

/-! ### Normalization -/

/-- The loop over the other modalities of the cached tokens: each reported one fits into what
    is left. -/
def modalitiesFit (remaining : Int) : List (Option Int) → Bool
  | [] => true
  | none :: rest => modalitiesFit remaining rest
  | some count :: rest =>
      if count < 0 ∨ remaining < count then false else modalitiesFit (remaining - count) rest

variable (usage : Usage)

/-- The reported image part of the cached tokens, if the breakdown is valid. -/
def imageCacheTokens : Option Int :=
  match usage.promptTokensDetails.cachedTokensDetails with
  | none => none
  | some details =>
      match details.imageTokens with
      | none => none
      | some cachedImage =>
          let cached := usage.promptTokensDetails.cachedTokens
          let image := usage.promptTokensDetails.imageTokens
          if 0 ≤ cachedImage ∧ cachedImage ≤ cached ∧ cachedImage ≤ image ∧
              cached ≤ usage.promptTokens ∧
              image ≤ usage.promptTokens - (cached - cachedImage) ∧
              modalitiesFit (cached - cachedImage) [details.textTokens, details.audioTokens] then
            some cachedImage
          else none

variable (isClaudeUsageSemantic : Bool) (usedVars : String → Bool)

/-- What is split off the image and the cached tokens: nothing without the variable, and nothing
    for Anthropic counts. -/
def splitImageCache : Int :=
  if usedVars "img_cr" ∧ ¬ isClaudeUsageSemantic then (imageCacheTokens usage).getD 0 else 0

/-- The cache creation tokens with the five-minute or an unspecified lifetime. -/
def cacheCreation5m : Int :=
  if usage.usageSemantic = .anthropic then usage.claudeCacheCreation5mTokens
  else usage.promptTokensDetails.cacheCreationTokensTotal

/-- The cache creation tokens with the one-hour lifetime. -/
def cacheCreation1h : Int :=
  if usage.usageSemantic = .anthropic then usage.claudeCacheCreation1hTokens else 0

structure TokenParams where
  (p c len cr cc cc1h img imgCR imgO ai ao : Int)

/-- The count of a category that the expression prices itself. -/
def priced (name : String) (count : Int) : Int := if usedVars name then count else 0

def buildTieredTokenParams : TokenParams :=
  let imgCR := splitImageCache usage isClaudeUsageSemantic usedVars
  let cr := usage.promptTokensDetails.cachedTokens - imgCR
  let img := usage.promptTokensDetails.imageTokens - imgCR
  let cc5m := cacheCreation5m usage
  let cc1h := cacheCreation1h usage
  let ai := usage.promptTokensDetails.audioTokens
  let imgO := usage.completionTokenDetails.imageTokens
  let ao := usage.completionTokenDetails.audioTokens
  let inputLen :=
    if isClaudeUsageSemantic then usage.promptTokens + cr + cc5m + cc1h else usage.promptTokens
  let p :=
    if isClaudeUsageSemantic then
      -- Anthropic input excludes cache reads: without a price of their own they join the input.
      if usedVars "cr" then usage.promptTokens else usage.promptTokens + cr
    else
      usage.promptTokens - priced usedVars "cr" cr - priced usedVars "cc" cc5m
        - priced usedVars "cc1h" cc1h - priced usedVars "img" img
        - priced usedVars "img_cr" imgCR - priced usedVars "ai" ai
  let c :=
    if isClaudeUsageSemantic then usage.completionTokens
    else usage.completionTokens - priced usedVars "img_o" imgO - priced usedVars "ao" ao
  { p := max p 0, c := max c 0, len := inputLen, cr := cr, cc := cc5m, cc1h := cc1h, img := img
    imgCR := imgCR, imgO := imgO, ai := ai, ao := ao }

/-! ### The partition -/

/-- The input tokens that are priced: `p` and the categories the expression uses. -/
def TokenParams.pricedInput (t : TokenParams) (usedVars : String → Bool) : Int :=
  t.p + priced usedVars "cr" t.cr + priced usedVars "cc" t.cc + priced usedVars "cc1h" t.cc1h
    + priced usedVars "img" t.img + priced usedVars "img_cr" t.imgCR + priced usedVars "ai" t.ai

/-- The output tokens that are priced. -/
def TokenParams.pricedOutput (t : TokenParams) (usedVars : String → Bool) : Int :=
  t.c + priced usedVars "img_o" t.imgO + priced usedVars "ao" t.ao

/-- All cache creation tokens of an Anthropic record: split by lifetime, and the rest. -/
def cacheCreationTokens : Int :=
  max usage.promptTokensDetails.cacheCreationTokensTotal
    (usage.claudeCacheCreation5mTokens + usage.claudeCacheCreation1hTokens)

def inputLength : Int :=
  if isClaudeUsageSemantic then
    usage.promptTokens + usage.promptTokensDetails.cachedTokens + cacheCreationTokens usage
  else usage.promptTokens

/-- **The property**: every token is priced exactly once. -/
structure TokensPartitioned (usage : Usage) (isClaudeUsageSemantic : Bool)
    (usedVars : String → Bool) (t : TokenParams) : Prop where
  input : t.pricedInput usedVars = inputLength usage isClaudeUsageSemantic
  output : t.pricedOutput usedVars = usage.completionTokens

/-- The counts of a usage record that are not negative. -/
structure Usage.NonNegative (usage : Usage) : Prop where
  prompt : 0 ≤ usage.promptTokens
  completion : 0 ≤ usage.completionTokens
  cached : 0 ≤ usage.promptTokensDetails.cachedTokens

/-- The input categories besides cache reads that the expression prices itself. -/
def pricedApart : Int :=
  priced usedVars "cc" (cacheCreation5m usage) + priced usedVars "cc1h" (cacheCreation1h usage)
    + priced usedVars "img" usage.promptTokensDetails.imageTokens
    + priced usedVars "ai" usage.promptTokensDetails.audioTokens

/-- The output categories that the expression prices itself. -/
def pricedOutputApart : Int :=
  priced usedVars "img_o" usage.completionTokenDetails.imageTokens
    + priced usedVars "ao" usage.completionTokenDetails.audioTokens

/-- The cached image tokens that would be counted both as cached and as image tokens. -/
def overlap : Int := priced usedVars "img_cr" ((imageCacheTokens usage).getD 0)

/-- The condition.  Anthropic input: what is priced apart is exactly the cache creation, and
    nothing of the output is.  Any other: what is priced apart fits into the totals. -/
def PartitionCondition : Prop :=
  if isClaudeUsageSemantic then
    pricedApart usage usedVars = cacheCreationTokens usage ∧ pricedOutputApart usage usedVars = 0
  else
    priced usedVars "cr" (usage.promptTokensDetails.cachedTokens - overlap usage usedVars)
          + pricedApart usage usedVars
          + overlap usage usedVars - priced usedVars "img" (overlap usage usedVars)
        ≤ usage.promptTokens ∧
      pricedOutputApart usage usedVars ≤ usage.completionTokens

instance (usage : Usage) (isClaudeUsageSemantic : Bool) (usedVars : String → Bool) :
    Decidable (PartitionCondition usage isClaudeUsageSemantic usedVars) := by
  unfold PartitionCondition
  infer_instance

section Partition

variable {usage : Usage} (usedVars : String → Bool)

theorem priced_sub (name : String) (a b : Int) :
    priced usedVars name (a - b) = priced usedVars name a - priced usedVars name b := by
  unfold priced
  split <;> ring

@[simp] theorem priced_zero (name : String) : priced usedVars name 0 = 0 := by
  unfold priced
  split <;> rfl

theorem splitImageCache_eq (usage : Usage) (usedVars : String → Bool) :
    splitImageCache usage false usedVars = overlap usage usedVars ∧
      priced usedVars "img_cr" (overlap usage usedVars) = overlap usage usedVars := by
  unfold splitImageCache overlap priced
  cases usedVars "img_cr" <;> simp

/-- Anthropic counts: input and cache reads are priced once, whether the expression has a price
    for cache reads or not. -/
theorem claude_priced (h : usage.NonNegative) :
    (buildTieredTokenParams usage true usedVars).pricedInput usedVars
        = usage.promptTokens + usage.promptTokensDetails.cachedTokens + pricedApart usage usedVars ∧
      (buildTieredTokenParams usage true usedVars).pricedOutput usedVars
        = usage.completionTokens + pricedOutputApart usage usedVars := by
  obtain ⟨hprompt, hcompletion, hcached⟩ := h
  have hsplit : splitImageCache usage true usedVars = 0 := by simp [splitImageCache]
  unfold buildTieredTokenParams TokenParams.pricedInput TokenParams.pricedOutput pricedApart
    pricedOutputApart
  simp only [hsplit, if_true, sub_zero, priced_zero]
  refine ⟨?_, by omega⟩
  cases hcr : usedVars "cr" with
  | true =>
    simp only [priced, hcr, if_true]
    omega
  | false =>
    simp only [priced, hcr, Bool.false_eq_true, if_false]
    omega

/-- Counts that include all categories: `p` is the prompt without what is priced apart, floored
    at zero. -/
theorem openai_priced (usage : Usage) (usedVars : String → Bool) :
    let apart := priced usedVars "cr" (usage.promptTokensDetails.cachedTokens -
      overlap usage usedVars)
      + pricedApart usage usedVars + overlap usage usedVars
      - priced usedVars "img" (overlap usage usedVars)
    (buildTieredTokenParams usage false usedVars).pricedInput usedVars =
      max (usage.promptTokens - apart) 0 + apart ∧
      (buildTieredTokenParams usage false usedVars).pricedOutput usedVars
        = max (usage.completionTokens - pricedOutputApart usage usedVars) 0 +
          pricedOutputApart usage usedVars := by
  obtain ⟨hsplit, hown⟩ := splitImageCache_eq usage usedVars
  unfold buildTieredTokenParams TokenParams.pricedInput TokenParams.pricedOutput pricedApart
    pricedOutputApart
  simp only [hsplit, Bool.false_eq_true, if_false, priced_sub, hown]
  constructor <;> ring_nf

end Partition

/-- **Every token is priced exactly once** precisely under the condition, for both upstream
    semantics and every set of variables. -/
theorem tokens_partitioned_iff (usage : Usage) (isClaudeUsageSemantic : Bool)
    (usedVars : String → Bool) (h : usage.NonNegative) :
    TokensPartitioned usage isClaudeUsageSemantic usedVars
        (buildTieredTokenParams usage isClaudeUsageSemantic usedVars)
      ↔ PartitionCondition usage isClaudeUsageSemantic usedVars := by
  cases isClaudeUsageSemantic with
  | true =>
    obtain ⟨hinput, houtput⟩ := claude_priced usedVars h
    unfold PartitionCondition
    rw [if_pos rfl]
    constructor
    · rintro ⟨hin, hout⟩
      rw [inputLength, if_pos rfl] at hin
      omega
    · rintro ⟨hin, hout⟩
      refine ⟨?_, by omega⟩
      rw [inputLength, if_pos rfl]
      omega
  | false =>
    obtain ⟨hinput, houtput⟩ := openai_priced usage usedVars
    unfold PartitionCondition
    rw [if_neg Bool.false_ne_true]
    constructor
    · rintro ⟨hin, hout⟩
      rw [inputLength, if_neg Bool.false_ne_true] at hin
      omega
    · rintro ⟨hin, hout⟩
      refine ⟨?_, by omega⟩
      rw [inputLength, if_neg Bool.false_ne_true]
      omega

/-- Anthropic counts with writes of both lifetimes. -/
def mixedCreation : Usage :=
  { promptTokens := 750, completionTokens := 100, usageSemantic := .anthropic
    promptTokensDetails := { cachedTokens := 200, cachedCreationTokens := 50 }
    claudeCacheCreation5mTokens := 30, claudeCacheCreation1hTokens := 20 }

/-- The variables of an expression that prices all cache traffic. -/
def cacheVars (name : String) : Bool := name ∈ ["p", "c", "cr", "cc", "cc1h"]

theorem mixedCreation_partitioned_iff :
    mixedCreation.NonNegative ∧
      (TokensPartitioned mixedCreation true cacheVars
        (buildTieredTokenParams mixedCreation true cacheVars)
        ↔ PartitionCondition mixedCreation true cacheVars) :=
  ⟨⟨by decide, by decide, by decide⟩,
    tokens_partitioned_iff mixedCreation true cacheVars ⟨by decide, by decide, by decide⟩⟩

example : PartitionCondition mixedCreation true cacheVars := by decide

/-- **Cache writes of Anthropic records are lost**: those without a lifetime, and those of a
    lifetime that the expression has no variable for. -/
theorem creation_tokens_lost :
    let unsplit : Usage := { mixedCreation with
      claudeCacheCreation5mTokens := 0, claudeCacheCreation1hTokens := 0 }
    let used (name : String) : Bool := name ∈ ["p", "c"]
    ¬ TokensPartitioned unsplit true cacheVars (buildTieredTokenParams unsplit true cacheVars) ∧
      ¬ TokensPartitioned mixedCreation true used
        (buildTieredTokenParams mixedCreation true used) :=
  ⟨fun h => absurd h.input (by decide), fun h => absurd h.input (by decide)⟩

end TokenGateway.Pricing
