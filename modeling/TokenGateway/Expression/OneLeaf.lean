import TokenGateway.Base.Transaction
import TokenGateway.Expression.Fixed

namespace TokenGateway.Expression

open Base

/-!
# One pricing leaf per run

`validateFixedPricingTree` "enforces one pricing leaf per execution": without it "adding two tiers
or multiplying a fixed price by tokens would make both the request charge and its billing-unit trace
ambiguous".

* `Leaf`, `Selects` — the leaf a run ends at, and the multipliers on the way to it;
* `eval_selects` — the run of an accepted tree calls `tier` once, at the selected leaf, and `fixed`
  only as its price;
* `one_pricing_leaf` — what that means for the charge and the trace of an accepted expression that
  does not name `$env`;
* `env_member_adds_fixed` — through `$env` a leaf reaches `fixed` without naming it.
-/

variable {F σ : Type}

/-! ### Leaves -/

/-- A pricing leaf as it was executed: its tier, its fixed amount if it has one, its price. -/
structure Leaf (F : Type) where
  name : String
  fixed : Option F
  price : F

def Leaf.calls (leaf : Leaf F) : List (PricingCall F) :=
  (leaf.fixed.map fun amount => (HostFunction.fixed, [Value.data (.float amount)])).toList ++
    [(.tier, [.data (.str leaf.name), .data (.float leaf.price)])]

/-- What the run of a leaf has done to the trace and the list of pricing calls. -/
structure Executed (leaf : Leaf F) (s s' : TraceResult F × List (PricingCall F)) : Prop where
  calls : s'.2 = s.2 ++ leaf.calls
  matchedTier : s'.1.matchedTier = leaf.name
  cost : s'.1.cost = leaf.price
  billingUnit : s'.1.billingUnit = if leaf.fixed.isSome then .request else s.1.billingUnit
  fixedPrice : s'.1.fixedPrice = if leaf.fixed.isSome then leaf.fixed else s.1.fixedPrice

variable {leaf : Leaf F} {t u : TraceResult F × List (PricingCall F)}

theorem Executed.of_before {s : TraceResult F × List (PricingCall F)}
    (h : SamePricing s t) (h' : Executed leaf t u) : Executed leaf s u :=
  ⟨by rw [h'.calls, h.calls], h'.matchedTier, h'.cost, by rw [h'.billingUnit, h.billingUnit],
    by rw [h'.fixedPrice, h.fixedPrice]⟩

theorem Executed.of_after {s : TraceResult F × List (PricingCall F)}
    (h : Executed leaf s t) (h' : SamePricing t u) : Executed leaf s u :=
  ⟨by rw [h'.calls, h.calls], h'.matchedTier.trans h.matchedTier, h'.cost.trans h.cost,
    by rw [h'.billingUnit, h.billingUnit], by rw [h'.fixedPrice, h.fixedPrice]⟩

/-! ### Inversion of calls -/

variable {H : Handler F σ} {M : Machine F} {f : HostFunction} {s s' : σ} {args : List (Value F)}
  {w : Value F}

/-- A call that succeeds hands over its arguments and gives data. -/
theorem apply_func_some (h : H.apply M (.func f) args s = (some w, s')) :
    ∃ passed d, M.passAll f f.params args = some passed ∧ H.call f passed s = (some d, s') ∧
      w = .data d := by
  obtain ⟨passed, s1, hpass, hrest⟩ := Run.bind_eq_some.mp h
  obtain ⟨hpassed, rfl⟩ := Run.lift_eq_some.mp hpass
  obtain ⟨d, s2, hcall, hpure⟩ := Run.bind_eq_some.mp hrest
  obtain ⟨rfl, rfl⟩ := Run.pure_eq_some.mp hpure
  exact ⟨passed, d, hpassed, hcall, rfl⟩

theorem logged_call_some {s s' : σ × List (PricingCall F)} {d : Datum F}
    (h : (logged H).call f args s = (some d, s')) :
    ∃ t, H.call f args s.1 = (some d, t) ∧ s' = (t, if f = .tier ∨ f = .fixed then s.2 ++
      [(f, args)] else s.2) := by
  have h1 : (H.call f args s.1).1 = some d := congrArg Prod.fst h
  have h2 := congrArg Prod.snd h
  exact ⟨(H.call f args s.1).2, Prod.ext h1 rfl, h2.symm⟩

theorem passAll_two {t u : Ty} {v : Value F} {passed : List (Value F)}
    (h : M.passAll f [t, u] [v, w] = some passed) (hw : w.hasType u = true) :
    ∃ x, passed = [x, w] := by
  simp only [Machine.passAll, Machine.pass_of_hasType hw] at h
  cases hv : M.pass f t v with
  | none => simp [hv] at h
  | some x =>
    rw [hv] at h
    exact ⟨x, (Option.some.inj h).symm⟩

variable {amountNode : Node F}

theorem fixedArgument_some {price : Node F} (h : fixedArgument price = some amountNode) :
    price = .call (.identifier "fixed") [amountNode] := by
  unfold fixedArgument at h
  split at h
  · split at h
    · next hfun =>
      cases h
      rw [eq_of_beq hfun]
    · cases h
  · cases h

theorem imageCountFor_range {uses : Bool} {request : RequestInput F} {imageCount : Int}
    (h : imageCountFor uses request = some imageCount) :
    1 ≤ imageCount ∧ imageCount ≤ maxImageN := by
  unfold imageCountFor at h
  split at h
  · dsimp only at h
    split_ifs at h
    cases h
    omega
  · cases h
    decide

variable [Float64 F] {ternary : Bool} {cond exp1 exp2 : Node F}

/-- A conditional that is not a rule evaluates its condition to a boolean and then one branch. -/
theorem eval_conditional_some {k : Nat} (hrule : isRequestRule
      (.conditional ternary cond exp1 exp2) = false)
    (h : eval M H k (.conditional ternary cond exp1 exp2) s = (some w, s')) :
    ∃ b t k', eval M H k cond s = (some (.data (.bool b)), t) ∧
      eval M H k' (if b then exp1 else exp2) t = (some w, s') := by
  simp only [eval, hrule, Bool.false_eq_true, if_false] at h
  obtain ⟨v, t, hcond, hbranch⟩ := Run.bind_eq_some.mp h
  unfold Value.asBool at hbranch
  split at hbranch
  · next b =>
    cases b with
    | true => exact ⟨true, t, _, hcond, hbranch⟩
    | false => exact ⟨false, t, _, hcond, hbranch⟩
  · cases hbranch

/-- The compiled form of a conditional that is not a rule. -/
theorem compiled_conditional (M : Machine F) (n : Nat)
    (hrule : isRequestRule (.conditional ternary cond exp1 exp2) = false) :
    ∃ n1 n2, convert M (patchAt n (.conditional ternary cond exp1 exp2)) =
        .conditional ternary (convert M (patchAt n cond)) (convert M (patchAt n1 exp1))
          (convert M (patchAt n2 exp2)) ∧
      isRequestRule (.conditional ternary (convert M (patchAt n cond)) (convert M (patchAt n1 exp1))
        (convert M (patchAt n2 exp2))) = false := by
  refine ⟨n + ruleCount cond, n + ruleCount cond + ruleCount exp1, ?_, ?_⟩
  · rw [patchAt_conditional n hrule, convert]
  · rw [isRequestRule_convert, isRequestRule_patchAt, hrule]

variable {n : Nat} {a b : Node F} {amount : F}

section Run

variable {M : Machine F} {P : Platform F} {params : TokenParams F} {request : RequestInput F}
  {imageCount : Int} {d : Datum F}

/-- A call that succeeds has one of the effects of the environment's functions. -/
theorem environment_call_some {t t' : TraceResult F}
    (h : (environment P params request imageCount).call f args t = (some d, t')) :
    ∃ effect, hostEffect P (normalizeHeaders P request.headers) request f args = some effect ∧
      d = effect.result ∧ t' = effect.write t := by
  simp only [environment, hostCall] at h
  cases heffect : hostEffect P (normalizeHeaders P request.headers) request f args with
  | none =>
    rw [heffect] at h
    cases h
  | some effect =>
    rw [heffect] at h
    cases h
    exact ⟨effect, rfl, rfl, rfl⟩

/-! ### Multipliers -/

variable {k : Nat} {node : Node F} {H : Handler F σ}

/-- The two literals of a multiplier, and the validity of its number. -/
theorem multiplier_conditional
    (h : isRequestPriceMultiplier (.conditional ternary cond exp1 exp2) = true) :
    usesRequestProbe cond = true ∧ containsPricingMarker cond = false ∧
      ∃ m, requestRuleNumber exp1 = some m ∧ requestRuleNumber exp2 = some (Float64.ofInt 1) ∧
        Float64.nonneg m = true ∧ Float64.IsFinite m := by
  simp only [isRequestPriceMultiplier, Bool.and_eq_true, Bool.not_eq_true'] at h
  obtain ⟨⟨hprobe, hmark⟩, hnum⟩ := h
  cases h1 : requestRuleNumber exp1 with
  | none => simp [h1] at hnum
  | some m =>
    cases h2 : requestRuleNumber exp2 with
    | none => simp [h2] at hnum
    | some f =>
      simp only [h1, h2, Bool.and_eq_true, Bool.not_eq_true'] at hnum
      obtain ⟨⟨⟨hone, hnonneg⟩, hnan⟩, hinf⟩ := hnum
      exact ⟨hprobe, hmark, m, rfl, by rw [Float64.eq_one f hone], hnonneg, hnan, hinf⟩

theorem mentions_compiled (M : Machine F) (node : Node F) (n : Nat) (p : String → Bool)
    (hp : IgnoresTrace p) : (convert M (patchAt n node)).mentions p = node.mentions p := by
  rw [mentions_convert, mentions_patchAt hp]

theorem mentions_compiledArg (M : Machine F) (types : List Ty) (node : Node F) (n : Nat)
    (p : String → Bool) (hp : IgnoresTrace p) :
    (convertArg M types (patchAt n node)).mentions p = node.mentions p := by
  rw [convertArg_of M (Node.mentions p) types (mentions_floatLiterals p) (mentions_convert M p _),
    mentions_patchAt hp]

theorem multiplier_unmarked (h : isRequestPriceMultiplier node = true) :
    containsPricingMarker node = false := by
  cases node with
  | identifier value =>
    have hv : value = "image_count" := by simpa [isRequestPriceMultiplier] using h
    subst hv
    rfl
  | conditional ternary cond exp1 exp2 =>
    obtain ⟨-, hmark, m, h1, h2, -⟩ := multiplier_conditional h
    have hn1 := mentions_number isPricingMarker (number_cases _ (by rw [h1]; rfl))
    have hn2 := mentions_number isPricingMarker (number_cases _ (by rw [h2]; rfl))
    simp only [containsPricingMarker] at hmark
    simp [containsPricingMarker, Node.mentions, hmark, hn1, hn2]
  | _ => simp [isRequestPriceMultiplier] at h

theorem literal_value {m : F} (hnum : requestRuleNumber node = some m)
    (h : eval M H k (convert M node) s = (some w, s')) : ∃ d, w = .data d ∧ w.asFloat = some m := by
  obtain ⟨i, rfl⟩ | ⟨f, rfl⟩ := number_cases node (by rw [hnum]; rfl)
  all_goals
    cases h
    exact ⟨_, rfl, hnum⟩

/-! ### The selected leaf -/

variable {v : Value F}

/-- In some state of the run, the compiled form of a part of the tree evaluates to this value. -/
def Evaluates (M : Machine F) (H : Handler F σ) (node : Node F) (w : Value F) : Prop :=
  ∃ k n s s', eval M H k (convert M (patchAt n node)) s = (some w, s')

/-- The run of a tree ends at a leaf, having evaluated these multipliers, the innermost first. -/
inductive Selects (M : Machine F) (H : Handler F σ) : Node F → Leaf F → List F → Prop where
  | fixed (name amountNode : Node F) (leaf : Leaf F) (amount : F)
      (hamount : requestRuleNumber amountNode = some amount) (hfixed : leaf.fixed = some amount)
      (hprice : leaf.price = Float64.mul amount million) :
      Selects M H (.call (.identifier "tier") [name, .call (.identifier "fixed") [amountNode]]) leaf
        []
  | token (name price : Node F) (leaf : Leaf F) (hprice : containsPricingMarker price = false)
      (hfixed : leaf.fixed = none) : Selects M H (.call (.identifier "tier") [name, price]) leaf []
  | timesRight (left right : Node F) (leaf : Leaf F) (factors : List F) (w : Value F) (f : F)
      (hmult : isRequestPriceMultiplier right = true) (hleft : Selects M H left leaf factors)
      (hright : Evaluates M H right w) (hw : w.asFloat = some f) :
      Selects M H (.binary .mul left right) leaf (factors ++ [f])
  | timesLeft (left right : Node F) (leaf : Leaf F) (factors : List F) (w : Value F) (f : F)
      (hmult : isRequestPriceMultiplier left = true) (hright : Selects M H right leaf factors)
      (hleft : Evaluates M H left w) (hw : w.asFloat = some f) :
      Selects M H (.binary .mul left right) leaf (factors ++ [f])
  | whenTrue (ternary : Bool) (cond exp1 exp2 : Node F) (leaf : Leaf F) (factors : List F)
      (hcond : Evaluates M H cond (.data (.bool true))) (h : Selects M H exp1 leaf factors) :
      Selects M H (.conditional ternary cond exp1 exp2) leaf factors
  | whenFalse (ternary : Bool) (cond exp1 exp2 : Node F) (leaf : Leaf F) (factors : List F)
      (hcond : Evaluates M H cond (.data (.bool false))) (h : Selects M H exp2 leaf factors) :
      Selects M H (.conditional ternary cond exp1 exp2) leaf factors

/-- The product of a price with its multipliers, in the order they are applied. -/
def charge (price : F) (factors : List F) : F := factors.foldl Float64.mul price

theorem charge_append (price : F) (factors : List F) (f : F) :
    charge price (factors ++ [f]) = Float64.mul (charge price factors) f := by
  simp [charge]

/-- expr-lang multiplies a float with any number as floats. -/
structure Machine.MultipliesFloats (M : Machine F) : Prop where
  right : ∀ a d b, (Value.data d).asFloat = some b →
    M.binary .mul (.data (.float a)) (.data d) = some (.float (Float64.mul a b))
  left : ∀ a d b, (Value.data d).asFloat = some b →
    M.binary .mul (.data d) (.data (.float a)) = some (.float (Float64.mul b a))

theorem valid_not_number (h : validateFixedPricingTree node = .ok ()) :
    requestRuleNumber node = none := by
  cases node with
  | integer i | float f => cases h
  | _ => rfl

theorem evalArgs_two (h : evalArgs M H k [a, b] s = (some args, s')) :
    ∃ v w t k', eval M H k a s = (some v, t) ∧ eval M H k' b t = (some w, s') ∧ args = [v, w] := by
  obtain ⟨v, t, hv, hrest⟩ := Run.bind_eq_some.mp h
  obtain ⟨ws, u, hws, hpure⟩ := Run.bind_eq_some.mp hrest
  obtain ⟨w, u', hw, hnil⟩ := Run.bind_eq_some.mp hws
  obtain ⟨rest, u'', hrest', hpure'⟩ := Run.bind_eq_some.mp hnil
  cases hrest'
  cases hpure'
  cases hpure
  exact ⟨v, w, t, _, hv, hw, rfl⟩

theorem compiled_tier (M : Machine F) (name price : Node F) (n : Nat) :
    ∃ n1 n2, convert M (patchAt n (.call (.identifier "tier") [name, price])) =
      .call (.identifier "tier") [convertArg M [.str, .float] (patchAt n1 name),
        convertArg M [.float] (patchAt n2 price)] := by
  refine ⟨n + ruleCount (.identifier "tier" : Node F),
    n + ruleCount (.identifier "tier" : Node F) + ruleCount name, ?_⟩
  simp only [patchAt]
  rfl

/-- The compiled form of a fixed price: the literal is a float. -/
theorem compiled_fixed (M : Machine F)
    (hnum : requestRuleNumber amountNode = some amount) (n : Nat) :
    convertArg M [.float] (patchAt n (.call (.identifier "fixed") [amountNode])) =
      .call (.identifier "fixed") [.float amount] := by
  obtain ⟨i, rfl⟩ | ⟨g, rfl⟩ := number_cases amountNode (by rw [hnum]; rfl)
  all_goals
    cases hnum
    rfl

theorem mul_eval {left right : Node F}
    (h : eval M H k (convert M (patchAt n (.binary .mul left right))) s = (some v, s')) :
    ∃ l r t k' n', eval M H k (convert M (patchAt n left)) s = (some l, t) ∧
      eval M H k' (convert M (patchAt n' right)) t = (some r, s') ∧
      (M.binary .mul l r).map .data = some v := by
  obtain ⟨l, t, hl, hrest⟩ := Run.bind_eq_some.mp h
  obtain ⟨r, t', hr, hlift⟩ := Run.bind_eq_some.mp hrest
  obtain ⟨hres, rfl⟩ := Run.lift_eq_some.mp hlift
  exact ⟨l, r, t, _, _, hl, hr, hres⟩

/-! ### The run -/

variable {s s' : TraceResult F × List (PricingCall F)}
  {E : Handler F (TraceResult F × List (PricingCall F))}
  (hE : E = logged (environment P params request imageCount))
include hE

theorem tier_call (h : E.call .tier args s = (some d, s')) :
    ∃ name value, args = [.data (.str name), .data (.float value)] ∧ d = .float value ∧
      s' = ({ s.1 with matchedTier := name, cost := value }, s.2 ++ [(.tier, args)]) := by
  subst hE
  obtain ⟨t, hcall, rfl⟩ := logged_call_some h
  obtain ⟨effect, heffect, rfl, rfl⟩ := environment_call_some hcall
  obtain ⟨-, name, value, rfl, rfl⟩ | ⟨hf, -⟩ | ⟨hf, -⟩ | ⟨hf, -⟩ := hostEffect_cases heffect
  · exact ⟨name, value, rfl, rfl, rfl⟩
  · cases hf
  · rcases hf with hf | hf <;> cases hf
  · exact absurd rfl hf

theorem fixed_call (h : E.call .fixed args s = (some d, s')) :
    ∃ amount, args = [.data (.float amount)] ∧ d = .float (Float64.mul amount million) ∧
      s' = ({ s.1 with billingUnit := .request, fixedPrice := some amount }, s.2 ++
        [(.fixed, args)]) := by
  subst hE
  obtain ⟨t, hcall, rfl⟩ := logged_call_some h
  obtain ⟨effect, heffect, rfl, rfl⟩ := environment_call_some hcall
  obtain ⟨hf, -⟩ | ⟨-, amount, rfl, rfl⟩ | ⟨hf, -⟩ | ⟨-, hf, -⟩ := hostEffect_cases heffect
  · cases hf
  · exact ⟨amount, rfl, rfl, rfl⟩
  · rcases hf with hf | hf <;> cases hf
  · exact absurd rfl hf

/-- The value of a trace call: the number of the rule, or 1. -/
theorem traceCall_value {index : Nat} (h1 : exp1.IsNumber) (h2 : exp2.IsNumber)
    (h : eval M E k (traceCall index cond exp1 exp2) s = (some w, s')) :
    ∃ d f, w = .data d ∧ w.asFloat = some f ∧
      (requestRuleNumber exp1 = some f ∨ f = Float64.ofInt 1) := by
  subst hE
  -- either trace function, after the condition was evaluated
  have htrace : ∀ {f : HostFunction} {ty : Ty} {m : Datum F} {v : Value F}
      {t : TraceResult F × List (PricingCall F)},
      (logged (environment P params request imageCount)).apply M (.func f)
        [.data (.int index), v, .data m] t = (some w, s') →
      f.params = [.int, .bool, ty] → (Value.data m).hasType ty = true →
      ∃ b effect, hostEffect P (normalizeHeaders P request.headers) request f
        [.data (.int index), .data (.bool b), .data m] = some effect ∧ w = .data effect.result := by
    intro f ty m v t hrun hparams htype
    obtain ⟨passed, d, hpass, hcall, rfl⟩ := apply_func_some hrun
    rw [passAll_trace M _ v hparams htype] at hpass
    obtain ⟨b', hb', rfl⟩ := Option.map_eq_some_iff.mp hpass
    obtain ⟨b, rfl⟩ := Machine.pass_bool hb'
    obtain ⟨u, hcall', -⟩ := logged_call_some hcall
    obtain ⟨effect, heffect, rfl, -⟩ := environment_call_some hcall'
    exact ⟨b, effect, heffect, rfl⟩
  obtain ⟨i, rfl⟩ | ⟨f, rfl⟩ := h1 <;> obtain ⟨j, rfl⟩ | ⟨g, rfl⟩ := h2
  all_goals
    simp only [traceCall, eval, evalArgs, Run.pure_bind, Run.bind_assoc] at h
    obtain ⟨v, t, -, hrun⟩ := Run.bind_eq_some.mp h
    obtain ⟨b, effect, heffect, rfl⟩ := htrace hrun rfl rfl
    cases heffect
    cases b with
    | false => exact ⟨_, _, rfl, rfl, .inr rfl⟩
    | true => exact ⟨_, _, rfl, rfl, .inl rfl⟩

/-- Compiling and instrumenting a quiet tree gives a quiet tree. -/
theorem compiled_quiet (node : Node F) {prog : Node F} (k : Nat)
    (hprog : ∀ p, IgnoresTrace p → prog.mentions p = node.mentions p)
    (hmark : containsPricingMarker node = false) (henv : node.mentions (· == envName) = false) :
    Run.Keeps SamePricing Harmless (eval M E k prog) := by
  subst hE
  refine eval_quiet M P params request imageCount prog k ?_ ?_
  · exact (hprog isPricingMarker ⟨by decide, by decide⟩).trans hmark
  · exact (hprog (· == envName) ⟨by decide, by decide⟩).trans henv

/-- **A multiplier** is quiet, and its value is a finite non-negative number. -/
theorem multiplier_eval (hcount : 1 ≤ imageCount ∧ imageCount ≤ maxImageN)
    (hmult : isRequestPriceMultiplier node = true) (henv : node.mentions (· == envName) = false)
    (h : eval M E k (convert M (patchAt n node)) s = (some w, s')) :
    SamePricing s s' ∧ ∃ d f, w = .data d ∧ w.asFloat = some f ∧ Float64.nonneg f = true ∧
      Float64.IsFinite f := by
  refine ⟨((compiled_quiet hE node k (mentions_compiled M node n)
    (multiplier_unmarked hmult) henv).of_some h).1, ?_⟩
  have hsmall : ∀ i : Int, 0 ≤ i → i ≤ maxImageN → Float64.nonneg (Float64.ofInt i : F) = true ∧
      Float64.IsFinite (Float64.ofInt i : F) := by
    intro i h0 h1
    refine ⟨Float64.ofInt_nonneg i h0, Float64.ofInt_finite i ?_⟩
    unfold maxImageN at h1
    omega
  cases node with
  | identifier value =>
    have hv : value = "image_count" := by simpa [isRequestPriceMultiplier] using hmult
    subst hv hE
    cases h
    exact ⟨_, Float64.ofInt imageCount, rfl, rfl, hsmall imageCount (by omega) hcount.2⟩
  | conditional ternary cond exp1 exp2 =>
    obtain ⟨-, -, m, h1, h2, hnonneg, hfinite⟩ := multiplier_conditional hmult
    have hn1 := number_cases exp1 (by rw [h1]; rfl)
    have hn2 := number_cases exp2 (by rw [h2]; rfl)
    have hone := hsmall 1 (by decide) (by decide)
    cases hrule : isRequestRule (.conditional ternary cond exp1 exp2) with
    | true =>
      have hc1 : convert M exp1 = exp1 := by obtain ⟨i, rfl⟩ | ⟨f, rfl⟩ := hn1 <;> rfl
      have hc2 : convert M exp2 = exp2 := by obtain ⟨i, rfl⟩ | ⟨f, rfl⟩ := hn2 <;> rfl
      rw [patchAt_rule n hrule, convert_traceCall M _ _ hn1 hn2, hc1, hc2] at h
      obtain ⟨d, f, hd, hf, hval⟩ := traceCall_value hE hn1 hn2 h
      refine ⟨d, f, hd, hf, ?_⟩
      rcases hval with hval | rfl
      · rw [h1] at hval
        cases hval
        exact ⟨hnonneg, hfinite⟩
      · exact hone
    | false =>
      obtain ⟨n1, n2, hform, hrule'⟩ := compiled_conditional M n hrule
      rw [hform] at h
      obtain ⟨b, t, k', -, hbranch⟩ := eval_conditional_some hrule' h
      rw [patchAt_number _ hn1, patchAt_number _ hn2] at hbranch
      cases b with
      | true =>
        obtain ⟨d, hd, hf⟩ := literal_value h1 hbranch
        exact ⟨d, m, hd, hf, hnonneg, hfinite⟩
      | false =>
        obtain ⟨d, hd, hf⟩ := literal_value h2 hbranch
        exact ⟨d, _, hd, hf, hone⟩
  | _ => simp [isRequestPriceMultiplier] at hmult

theorem fixed_eval (h : eval M E k (.call (.identifier "fixed") [.float amount]) s = (some w, s')) :
    w = .data (.float (Float64.mul amount million)) ∧
      s' = ({ s.1 with billingUnit := .request, fixedPrice := some amount },
        s.2 ++ [(.fixed, [.data (.float amount)])]) := by
  rw [eval] at h
  obtain ⟨args, t, hargs, hrest⟩ := Run.bind_eq_some.mp h
  cases hargs
  subst hE
  obtain ⟨f, t', hcallee, happly⟩ := Run.bind_eq_some.mp hrest
  cases hcallee
  obtain ⟨passed, d, hpass, hcall, rfl⟩ := apply_func_some happly
  have hpassed : passed = [.data (.float amount)] := by
    exact (Option.some.inj hpass).symm
  subst hpassed
  obtain ⟨amount', hargs, rfl, rfl⟩ := fixed_call rfl hcall
  cases hargs
  exact ⟨rfl, rfl⟩

/-- The evaluation of a leaf: its two arguments, then the call of `tier`. -/
theorem tier_eval (h : eval M E k (.call (.identifier "tier") [a, b]) s = (some v, s')) :
    ∃ v1 v2 t1 t2 k1 k2 name value, eval M E k1 a s = (some v1, t1) ∧
      eval M E k2 b t1 = (some v2, t2) ∧ v = .data (.float value) ∧
      s' = ({ t2.1 with matchedTier := name, cost := value },
        t2.2 ++ [(.tier, [.data (.str name), .data (.float value)])]) ∧
      ∀ x, v2 = .data (.float x) → value = x := by
  obtain ⟨args, t, hargs, hrest⟩ := Run.bind_eq_some.mp h
  obtain ⟨v1, v2, t1, k2, hv1, hv2, rfl⟩ := evalArgs_two hargs
  subst hE
  obtain ⟨f, t', hcallee, happly⟩ := Run.bind_eq_some.mp hrest
  cases hcallee
  obtain ⟨passed, d, hpass, hcall, rfl⟩ := apply_func_some happly
  obtain ⟨name, value, rfl, rfl, rfl⟩ := tier_call rfl hcall
  refine ⟨v1, v2, t1, t, _, k2, name, value, hv1, hv2, rfl, rfl, ?_⟩
  rintro x rfl
  obtain ⟨y, hy⟩ := passAll_two hpass rfl
  cases hy
  rfl

/-- **A leaf** calls `tier` once, and `fixed` exactly if its price is a fixed one. -/
theorem leaf_executed {callee : Node F} {arguments : List (Node F)}
    (hvalid : validateLeaf callee arguments = .ok ())
    (henv : (Node.call callee arguments).mentions (· == envName) = false)
    (h : eval M E k (convert M (patchAt n (.call callee arguments))) s = (some v, s')) :
    ∃ leaf, Selects M E (.call callee arguments) leaf [] ∧ v = .data (.float leaf.price) ∧
      Executed leaf s s' := by
  unfold validateLeaf at hvalid
  split at hvalid
  case h_2 => cases hvalid
  next value name price =>
  split at hvalid
  · cases hvalid
  next hshape =>
  simp only [Bool.or_eq_true, bne_iff_ne, not_or, not_not, Bool.not_eq_true] at hshape
  obtain ⟨rfl, hname⟩ := hshape
  simp only [Node.mentions, mentionsAny, Bool.or_eq_false_iff] at henv
  obtain ⟨n1, n2, hform⟩ := compiled_tier M name price n
  rw [hform] at h
  obtain ⟨v1, v2, t1, t2, k1, k2, tierName, x, hv1, hv2, rfl, rfl, hx⟩ := tier_eval hE h
  have hquiet := ((compiled_quiet hE name _ (mentions_compiledArg M _ name _) hname
    henv.2.1).of_some hv1).1
  unfold validatePrice at hvalid
  cases hfixed : fixedArgument price with
  | none =>
    -- a token price: nothing but `tier` is called
    rw [hfixed] at hvalid
    dsimp only at hvalid
    split at hvalid
    · cases hvalid
    next hmark =>
    rw [Bool.not_eq_true] at hmark
    have hquiet' := ((compiled_quiet hE price _ (mentions_compiledArg M _ price _) hmark
      henv.2.2.1).of_some hv2).1
    exact ⟨{ name := tierName, fixed := none, price := x }, .token name price _ hmark rfl, rfl,
      Executed.of_before (hquiet.trans hquiet') ⟨rfl, rfl, rfl, rfl, rfl⟩⟩
  | some amountNode =>
    -- a fixed price: `fixed` is called with its literal, then `tier` with the result
    rw [hfixed] at hvalid
    dsimp only at hvalid
    split at hvalid
    case isFalse => cases hvalid
    next hamount =>
    obtain rfl := fixedArgument_some hfixed
    unfold isFixedAmount at hamount
    obtain ⟨amount, hnum⟩ : ∃ amount, requestRuleNumber amountNode = some amount := by
      cases hnum : requestRuleNumber amountNode with
      | none => simp [hnum] at hamount
      | some amount => exact ⟨amount, rfl⟩
    rw [compiled_fixed M hnum] at hv2
    obtain ⟨rfl, rfl⟩ := fixed_eval hE hv2
    obtain rfl := hx _ rfl
    refine ⟨{ name := tierName, fixed := some amount, price := Float64.mul amount million },
      .fixed name amountNode _ amount hnum rfl rfl, rfl, ?_⟩
    refine Executed.of_before hquiet ⟨?_, rfl, rfl, rfl, rfl⟩
    simp [Leaf.calls]

/-- **The run of an accepted tree** ends at one leaf: its value is the leaf's price times the
    multipliers on the way, and nothing but the leaf has priced anything. -/
theorem eval_selects (hmul : M.MultipliesFloats)
    (hcount : 1 ≤ imageCount ∧ imageCount ≤ maxImageN) (tree : Node F) (k n : Nat)
    (s s' : TraceResult F × List (PricingCall F)) (v : Value F)
    (hvalid : validateFixedPricingTree tree = .ok ()) (henv : tree.mentions (· == envName) = false)
    (h : eval M E k (convert M (patchAt n tree)) s = (some v, s')) :
    ∃ leaf factors, Selects M E tree leaf factors ∧
      (∀ f ∈ factors, Float64.nonneg f = true ∧ Float64.IsFinite f) ∧
      v = .data (.float (charge leaf.price factors)) ∧ Executed leaf s s' := by
  fun_induction validateFixedPricingTree tree generalizing k n s s' v with
  | case1 => cases hvalid
  | case2 ternary cond exp1 exp2 hmark ih1 ih2 =>
    rw [Bool.not_eq_true] at hmark
    obtain ⟨u, h1, h2⟩ := seq_ok.mp hvalid
    simp only [Node.mentions, Bool.or_eq_false_iff] at henv
    -- a conditional between leaves is not a rule, since its branches are not numbers
    have hrule : isRequestRule (.conditional ternary cond exp1 exp2) = false := by
      rw [Bool.eq_false_iff]
      intro hrule
      obtain ⟨-, -, hnum, -⟩ := isRequestRule_iff.mp hrule
      rw [valid_not_number h1] at hnum
      cases hnum
    obtain ⟨n1, n2, hform, hrule'⟩ := compiled_conditional M n hrule
    rw [hform] at h
    obtain ⟨b, t, k', hcond, hbranch⟩ := eval_conditional_some hrule' h
    have hquiet := ((compiled_quiet hE cond _ (mentions_compiled M cond _) hmark henv.1.1).of_some
      hcond).1
    cases b with
    | true =>
      obtain ⟨leaf, factors, hsel, hfac, hv, hexec⟩ := ih1 k' n1 t s' v h1 henv.1.2 hbranch
      exact ⟨leaf, factors, .whenTrue _ _ _ _ _ _ ⟨k, n, s, t, hcond⟩ hsel, hfac, hv,
        hexec.of_before hquiet⟩
    | false =>
      obtain ⟨leaf, factors, hsel, hfac, hv, hexec⟩ := ih2 k' n2 t s' v h2 henv.2 hbranch
      exact ⟨leaf, factors, .whenFalse _ _ _ _ _ _ ⟨k, n, s, t, hcond⟩ hsel, hfac, hv,
        hexec.of_before hquiet⟩
  | case3 left right hright ih =>
    simp only [Node.mentions, Bool.or_eq_false_iff] at henv
    obtain ⟨l, r, t, k', n', hl, hr, hres⟩ := mul_eval h
    obtain ⟨leaf, factors, hsel, hfac, rfl, hexec⟩ := ih _ _ _ _ _ hvalid henv.1 hl
    obtain ⟨hquiet, d, f, rfl, hf, hgood⟩ := multiplier_eval hE hcount hright henv.2 hr
    rw [hmul.right _ _ _ hf] at hres
    refine ⟨leaf, factors ++ [f], .timesRight _ _ _ _ _ f hright hsel ⟨_, _, _, _, hr⟩ hf,
      List.forall_mem_append.mpr ⟨hfac, List.forall_mem_singleton.mpr hgood⟩, ?_,
      hexec.of_after hquiet⟩
    rw [charge_append]
    exact (Option.some.inj hres).symm
  | case4 left right _ hleft ih =>
    simp only [Node.mentions, Bool.or_eq_false_iff] at henv
    obtain ⟨l, r, t, k', n', hl, hr, hres⟩ := mul_eval h
    obtain ⟨hquiet, d, f, rfl, hf, hgood⟩ := multiplier_eval hE hcount hleft henv.1 hl
    obtain ⟨leaf, factors, hsel, hfac, rfl, hexec⟩ := ih _ _ _ _ _ hvalid henv.2 hr
    rw [hmul.left _ _ _ hf, Float64.mul_comm] at hres
    refine ⟨leaf, factors ++ [f], .timesLeft _ _ _ _ _ f hleft hsel ⟨_, _, _, _, hl⟩ hf,
      List.forall_mem_append.mpr ⟨hfac, List.forall_mem_singleton.mpr hgood⟩, ?_,
      hexec.of_before hquiet⟩
    rw [charge_append]
    exact (Option.some.inj hres).symm
  | case5 => cases hvalid
  | case6 callee arguments =>
    obtain ⟨leaf, hsel, hv, hexec⟩ := leaf_executed hE hvalid henv h
    exact ⟨leaf, [], hsel, by simp, hv, hexec⟩
  | case7 => cases hvalid

end Run

/-! ### The charge -/

/-- A product of non-negative numbers is non-negative and finite unless it overflows on the way. -/
theorem charge_nonneg {factors : List F} {price : F} (hprice : Float64.nonneg price = true)
    (hfactors : ∀ f ∈ factors, Float64.nonneg f = true ∧ Float64.IsFinite f)
    (hcharges : ∀ m, m ≤ factors.length → Float64.IsFinite (charge price (factors.take m))) :
    Float64.nonneg (charge price factors) = true ∧ Float64.IsFinite (charge price factors) := by
  induction factors generalizing price with
  | nil => exact ⟨hprice, hcharges 0 (Nat.le_refl 0)⟩
  | cons f factors ih =>
    obtain ⟨hf, hfin⟩ := hfactors f List.mem_cons_self
    have hzero : Float64.IsFinite price := hcharges 0 (Nat.zero_le _)
    refine ih (Float64.mul_nonneg price f hzero hfin hprice hf)
      (fun g hg => hfactors g (List.mem_cons_of_mem f hg)) fun m hm => ?_
    exact hcharges (m + 1) (Nat.succ_le_succ hm)

def pricingCalls (M : Machine F) (P : Platform F) (prog : Node F)
    (requestRules : List (RequestRuleTrace F)) (params : TokenParams F)
    (request : RequestInput F) : List (PricingCall F) :=
  match imageCountFor (usesImageCount prog) request with
  | none => []
  | some imageCount =>
    (runFloat M (logged (environment P params request imageCount)) prog
      (initialTrace (usesImageCount prog) imageCount requestRules, [])).2.2

/-- **One pricing leaf per run.** Whenever an accepted expression that uses `fixed()` and does not
    name `$env` runs successfully, the pricing calls are those of one leaf of its tree: `tier` once,
    and `fixed` exactly if the price of the leaf is `fixed(amount)`.  The charge is the leaf's price
    times the evaluated multipliers, which are finite and non-negative; it is finite and
    non-negative too when the price is and no product overflows.  The trace names the leaf. -/
theorem one_pricing_leaf (M : Machine F) (hmul : M.MultipliesFloats) (P : Platform F)
    (tree : Node F) (entry : CachedEntry F) (huses : usesFixedPricing tree = true)
    (hentry : compileEntry M tree = .ok entry) (henv : tree.mentions (· == envName) = false)
    (params : TokenParams F) (request : RequestInput F) (result : F) (trace : TraceResult F)
    (hrun : runProgram M P entry.prog entry.requestRules params request = (.ok result, trace)) :
    ∃ imageCount leaf factors, imageCountFor (usesImageCount entry.prog) request = some imageCount ∧
      Selects M (logged (environment P params request imageCount)) tree leaf factors ∧
      pricingCalls M P entry.prog entry.requestRules params request = leaf.calls ∧
      result = charge leaf.price factors ∧
      (∀ f ∈ factors, Float64.nonneg f = true ∧ Float64.IsFinite f) ∧
      (Float64.nonneg leaf.price = true →
        (∀ m, m ≤ factors.length → Float64.IsFinite (charge leaf.price (factors.take m))) →
          Float64.nonneg result = true ∧ Float64.IsFinite result) ∧
      (trace.billingUnit = .request ↔ leaf.fixed.isSome = true) ∧
      trace.fixedPrice = leaf.fixed ∧ trace.matchedTier = leaf.name := by
  obtain ⟨hvalid, hprog⟩ := compileEntry_ok huses hentry
  unfold runProgram at hrun
  cases hcount : imageCountFor (usesImageCount entry.prog) request with
  | none =>
    rw [hcount] at hrun
    cases hrun
  | some imageCount =>
    -- the run with the list of pricing calls is the run itself
    have hlogged := runFloat_extends M (logged_extends (environment P params request imageCount))
      entry.prog (fun _ _ _ => Run.returns_any _)
      (initialTrace (usesImageCount entry.prog) imageCount entry.requestRules)
      (initialTrace (usesImageCount entry.prog) imageCount entry.requestRules, []) rfl
    rw [hcount] at hrun
    dsimp only at hrun
    generalize runFloat M (environment P params request imageCount) entry.prog
      (initialTrace (usesImageCount entry.prog) imageCount entry.requestRules) = out
      at hrun hlogged
    obtain ⟨o, t⟩ := out
    cases o with
    | none => cases hrun
    | some f =>
      obtain ⟨hok, rfl⟩ := Prod.mk.inj hrun
      obtain rfl : f = result := Except.ok.inj hok
      obtain ⟨_, ⟨_, calls⟩, hrunLogged, rfl, rfl⟩ := hlogged f t rfl
      have hcalls : pricingCalls M P entry.prog entry.requestRules params request = calls := by
        simp [pricingCalls, hcount, hrunLogged]
      rw [hprog] at hrunLogged
      obtain ⟨v, t', heval, hlift⟩ := Run.bind_eq_some.mp hrunLogged
      obtain ⟨hfloat, rfl⟩ := Run.lift_eq_some.mp hlift
      obtain ⟨leaf, factors, hsel, hfac, rfl, hexec⟩ :=
        eval_selects rfl hmul (imageCountFor_range hcount) tree _ _ _ _ _ hvalid henv heval
      obtain rfl : charge leaf.price factors = f := Option.some.inj hfloat
      refine ⟨imageCount, leaf, factors, rfl, hsel, hcalls.trans hexec.calls, rfl, hfac,
        fun hprice hcharges => charge_nonneg hprice hfac hcharges, ?_, ?_, hexec.matchedTier⟩
      · rw [show t.billingUnit = _ from hexec.billingUnit]
        cases leaf.fixed with
        | none => simp [initialTrace]
        | some a => simp
      · rw [show t.fixedPrice = _ from hexec.fixedPrice]
        cases leaf.fixed with
        | none | some a => rfl

/-! ### Examples -/

theorem exprLang_multiplies : exprLang.MultipliesFloats where
  right a d b h := by
    cases d with
    | int i | float f => cases h; rfl
    | _ => cases h
  left a d b h := by
    cases d with
    | int i | float f => cases h; rfl
    | _ => cases h

/-- `(len > 5 ? tier("long", p * 2) : tier("flat", fixed(3))) * image_count *
    (param("vip") == nil ? 2 : 1)`. -/
def requestPrice : Node Whole :=
  .binary .mul
    (.binary .mul
      (.conditional true (.binary .gt (.identifier "len") (.integer 5))
        (.call (.identifier "tier") [.string "long", .binary .mul (.identifier "p") (.integer 2)])
        (.call (.identifier "tier") [.string "flat", .call (.identifier "fixed") [.integer 3]]))
      (.identifier "image_count"))
    (.conditional true (.binary .eq (.call (.identifier "param") [.string "vip"]) .nil) (.integer 2)
      (.integer 1))

/-- Four images at 3 each, doubled. -/
theorem requestPrice_one_leaf :
    ∃ entry trace, compileEntry exprLang requestPrice = .ok entry ∧
      runProgram exprLang plainPlatform entry.prog entry.requestRules noTokens
        { imageCount := some 4 } = (.ok ⟨24000000⟩, trace) ∧
      (trace.billingUnit = .request ∧
        (pricingCalls exprLang plainPlatform entry.prog entry.requestRules noTokens
          { imageCount := some 4 }).length = 2) ∧
      ∃ leaf : Leaf Whole, trace.fixedPrice = leaf.fixed ∧ trace.matchedTier = leaf.name := by
  refine ⟨_, _, rfl, rfl, ⟨by decide, by decide⟩, ?_⟩
  obtain ⟨_, leaf, _, -, -, -, -, -, -, -, hfixed, hname⟩ :=
    one_pricing_leaf exprLang exprLang_multiplies plainPlatform requestPrice _ (by decide) rfl
      (by decide) noTokens { imageCount := some 4 } ⟨24000000⟩ _ rfl
  exact ⟨leaf, hfixed, hname⟩

/-- `len > 5 ? tier("flat", fixed(1)) : tier("token", $env["fixed"](2) + p * 2)`. -/
def hiddenFixed : Node Whole :=
  .conditional true (.binary .gt (.identifier "len") (.integer 5))
    (.call (.identifier "tier") [.string "flat", .call (.identifier "fixed") [.integer 1]])
    (.call (.identifier "tier")
      [.string "token", .binary .add
          (.call (.member (.identifier "$env") (.string "fixed")) [.integer 2])
          (.binary .mul (.identifier "p") (.integer 2))])

/-- `tier("flat", fixed(10³⁰⁰)) * (param("vip") == nil ? 10¹⁰ : 1)`. -/
def hugePrice : Node Whole :=
  .binary .mul
    (.call (.identifier "tier") [.string "flat",
      .call (.identifier "fixed") [.float ⟨10 ^ 150 * 10 ^ 150⟩]])
    (.conditional true (.binary .eq (.call (.identifier "param") [.string "vip"]) .nil)
      (.float ⟨10 ^ 10⟩) (.float ⟨1⟩))

/-- **Through `$env` a token leaf reaches `fixed`**: it charges a fixed amount on top of its tokens
    and the trace reports a fixed price. And a finite fixed price can overflow under its
    multipliers. -/
theorem env_member_adds_fixed :
    (compileEntry exprLang hiddenFixed).toOption.map (fun entry =>
        let run := runProgram exprLang plainPlatform entry.prog entry.requestRules
          { noTokens with p := ⟨5⟩ } {}
        (run.1.toOption, run.2.matchedTier, run.2.billingUnit)) =
      some (some ⟨2000010⟩, "token", .request) ∧
    (compileEntry exprLang hugePrice).toOption.map (fun entry =>
        let run := runProgram exprLang plainPlatform entry.prog entry.requestRules noTokens {}
        run.1.toOption.map Float64.isInf) = some (some true) := by
  decide

end TokenGateway.Expression
