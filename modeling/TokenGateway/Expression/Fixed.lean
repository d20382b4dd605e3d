import TokenGateway.Expression.Meaning

namespace TokenGateway.Expression

open Base

/-!
# Fixed prices

`pkg/billingexpr/fixed.go`: an expression that uses `fixed()` must be a tree of conditionals and
request multipliers with `tier(name, price)` leaves, where a price is `fixed(<number>)` or names
neither `tier` nor `fixed`.

* `validateFixedPricingTree` — the check;
* `compileEntry` — `compileEntryFromCacheByHash` on a parsed tree;
* `logged` — an environment that keeps a list of the calls of `tier` and `fixed`;
* `eval_quiet` — a tree that names neither of them, nor `$env`, leaves the pricing part of the trace
  and the list alone.
-/

variable {F σ : Type}

/-! ### Calls of the pricing functions -/

/-- A call of `tier` or `fixed` with the arguments it received. -/
abbrev PricingCall (F : Type) := HostFunction × List (Value F)

/-- The environment `H` with a list of the pricing calls. -/
def logged (H : Handler F σ) : Handler F (σ × List (PricingCall F)) where
  value := H.value
  call f args := fun s =>
    let out := H.call f args s.1
    (out.1, out.2, if f = .tier ∨ f = .fixed then s.2 ++ [(f, args)] else s.2)
  condition := H.condition
  matched index s := (H.matched index s.1, s.2)

theorem logged_extends (H : Handler F σ) :
    Extends (fun _ => True) H (logged H) fun s t => s = t.1 where
  value := rfl
  call f args := by
    rintro s t rfl d s' hrun
    refine ⟨d, (s', if f = .tier ∨ f = .fixed then t.2 ++ [(f, args)] else t.2), ?_, rfl, rfl⟩
    show ((H.call f args t.1).1, (H.call f args t.1).2, _) = _
    rw [hrun]
  condition _ _ _ _ h := h
  matched index s t h := by
    subst h
    rfl

/-! ### Quiet computations -/

/-- Neither the pricing fields of the trace nor the list of pricing calls has changed. -/
structure SamePricing (s t : TraceResult F × List (PricingCall F)) : Prop where
  matchedTier : t.1.matchedTier = s.1.matchedTier
  cost : t.1.cost = s.1.cost
  billingUnit : t.1.billingUnit = s.1.billingUnit
  fixedPrice : t.1.fixedPrice = s.1.fixedPrice
  calls : t.2 = s.2

theorem SamePricing.refl (s : TraceResult F × List (PricingCall F)) : SamePricing s s :=
  ⟨rfl, rfl, rfl, rfl, rfl⟩

theorem SamePricing.trans {s t u : TraceResult F × List (PricingCall F)} (h : SamePricing s t)
    (h' : SamePricing t u) : SamePricing s u :=
  ⟨h'.1.trans h.1, h'.2.trans h.2, h'.3.trans h.3, h'.4.trans h.4, h'.5.trans h.5⟩

/-- A value through which no pricing function can be reached. -/
def Harmless (v : Value F) : Prop := v ≠ .func .tier ∧ v ≠ .func .fixed ∧ v ≠ .env

theorem harmless_data (d : Datum F) : Harmless (.data d) := ⟨nofun, nofun, nofun⟩

/-- The names of the pricing functions are the pricing markers. -/
theorem envEntry_pricing {name : String} {f : HostFunction} (h : envEntry name = some (.func f))
    (hname : isPricingMarker name = false) : f ≠ .tier ∧ f ≠ .fixed := by
  constructor
  all_goals
    rintro rfl
    unfold envEntry at h
    split at h <;> simp_all [isPricingMarker]

theorem identifier_harmless {H : Handler F σ} {name : String} {v : Value F}
    (hname : isPricingMarker name = false) (henv : (name == envName) = false)
    (hv : H.identifier name = some v) : Harmless v := by
  unfold Handler.identifier at hv
  rw [henv] at hv
  obtain ⟨entry, hentry, hval⟩ := Option.map_eq_some_iff.mp hv
  cases entry with
  | var x =>
    cases hval
    exact harmless_data _
  | func f =>
    obtain ⟨h1, h2⟩ := envEntry_pricing hentry hname
    cases hval
    exact ⟨fun h => h1 (by injection h), fun h => h2 (by injection h), nofun⟩

theorem quiet_bind {α β : Type} {Q : α → Prop} {R : β → Prop}
    {x : Run (TraceResult F × List (PricingCall F)) α}
    {f : α → Run (TraceResult F × List (PricingCall F)) β} (hx : Run.Keeps SamePricing Q x)
    (hf : ∀ a, Q a → Run.Keeps SamePricing R (f a)) : Run.Keeps SamePricing R (x >>= f) :=
  Run.Keeps.bind (I := SamePricing) (fun _ _ _ h h' => h.trans h') hx hf

theorem branch_quiet {s : Option Bool} {x y : Run (TraceResult F × List (PricingCall F)) (Value F)}
    (hx : Run.Keeps SamePricing Harmless x) (hy : Run.Keeps SamePricing Harmless y) :
    Run.Keeps SamePricing Harmless (branch s x y) := by
  rcases s with _ | b
  · exact Run.Keeps.fail SamePricing.refl
  · cases b
    · exact hy
    · exact hx

theorem lift_quiet (d : Option (Datum F)) :
    Run.Keeps (σ := TraceResult F × List (PricingCall F)) SamePricing Harmless
      (Run.lift (d.map .data)) := by
  refine Run.Keeps.lift SamePricing.refl fun v hv => ?_
  obtain ⟨d', -, rfl⟩ := Option.map_eq_some_iff.mp hv
  exact harmless_data d'

variable [Float64 F]

/-! ### The check -/

def isRequestPriceMultiplier : Node F → Bool
  | .identifier value => value == "image_count"
  | .conditional _ cond exp1 exp2 =>
    usesRequestProbe cond && !containsPricingMarker cond &&
      (match requestRuleNumber exp1, requestRuleNumber exp2 with
      | some multiplier, some fallback =>
        Float64.eq fallback (Float64.ofInt 1) && Float64.nonneg multiplier &&
          !Float64.isNaN multiplier && !Float64.isInf multiplier
      | _, _ => false)
  | _ => false

inductive FixedPricingError where
  /-- `fixed price must be a finite, non-negative numeric literal with a finite v1 value`. -/
  | amount
  /-- `fixed pricing requires tier(name, fixed(amount)) leaves, conditional tiers and request
      multipliers; token and fixed charges cannot be combined in one leaf`. -/
  | shape
  deriving DecidableEq

/-- A literal amount whose price in millionths is finite. -/
def isFixedAmount (node : Node F) : Bool :=
  (requestRuleNumber node).any fun amount =>
    Float64.nonneg amount && !Float64.isNaN amount && !Float64.isInf (Float64.mul amount million)

/-- The amount of a price `fixed(amount)`. -/
def fixedArgument : Node F → Option (Node F)
  | .call (.identifier function) [amount] => if function == "fixed" then some amount else none
  | _ => none

def validatePrice (price : Node F) : Except FixedPricingError Unit :=
  match fixedArgument price with
  | some amount => if isFixedAmount amount then .ok () else .error .amount
  | none => if containsPricingMarker price then .error .shape else .ok ()

def validateLeaf (callee : Node F) (arguments : List (Node F)) : Except FixedPricingError Unit :=
  match callee, arguments with
  | .identifier value, [name, price] =>
    if value != "tier" || containsPricingMarker name then .error .shape else validatePrice price
  | _, _ => .error .shape

def validateFixedPricingTree : Node F → Except FixedPricingError Unit
  | .conditional _ cond exp1 exp2 =>
    if containsPricingMarker cond then .error .shape
    else validateFixedPricingTree exp1 >>= fun _ => validateFixedPricingTree exp2
  | .binary .mul left right =>
    if isRequestPriceMultiplier right then validateFixedPricingTree left
    else if isRequestPriceMultiplier left then validateFixedPricingTree right
    else .error .shape
  | .call callee arguments => validateLeaf callee arguments
  | _ => .error .shape

/-! ### Compilation -/

inductive CompileError where
  | fixedPricing (e : FixedPricingError)
  /-- `identifier %q is reserved for internal use`. -/
  | reserved
  | compile
  deriving DecidableEq

/-- `cachedEntry`, as far as a run reads it. -/
structure CachedEntry (F : Type) where
  prog : Node F
  requestRules : List (RequestRuleTrace F)
  fixedPricing : Bool

/-- The expression names `fixed`, reachable or not. -/
def usesFixedPricing (tree : Node F) : Bool := tree.mentions (· == "fixed")

/-- `compileEntryFromCacheByHash`, after parsing. -/
def compileEntry (M : Machine F) (tree : Node F) : Except CompileError (CachedEntry F) :=
  match (if usesFixedPricing tree then validateFixedPricingTree tree else .ok ()) with
  | .error e => .error (.fixedPricing e)
  | .ok () =>
    if tree.mentions isReserved then .error .reserved
    else
      match compile M (patch tree []).1 with
      | none => .error .compile
      | some prog =>
        .ok { prog, requestRules := (patch tree []).2, fixedPricing := usesFixedPricing tree }

/-- What an accepted expression that uses `fixed()` has passed. -/
theorem compileEntry_ok {M : Machine F} {tree : Node F} {entry : CachedEntry F}
    (huses : usesFixedPricing tree = true) (h : compileEntry M tree = .ok entry) :
    validateFixedPricingTree tree = .ok () ∧ entry.prog = convert M (patchAt 0 tree) := by
  unfold compileEntry at h
  rw [huses, if_pos rfl] at h
  cases hvalid : validateFixedPricingTree tree with
  | error e =>
    rw [hvalid] at h
    cases h
  | ok u =>
    rw [hvalid] at h
    dsimp only at h
    split_ifs at h
    split at h
    · cases h
    next prog hprog =>
    cases h
    refine ⟨rfl, ?_⟩
    rw [(patch_spec tree []).1] at hprog
    exact compile_eq_some hprog

/-! ### Quiet trees -/

section Quiet

variable (M : Machine F) (P : Platform F) (params : TokenParams F) (request : RequestInput F)
  (imageCount : Int)

/-- The functions other than `tier` and `fixed` leave the pricing fields alone. -/
theorem hostEffect_quiet {headers : List (String × String)} {f : HostFunction}
    {args : List (Value F)} {effect : Effect F}
    (h : hostEffect P headers request f args = some effect) (h1 : f ≠ .tier) (h2 : f ≠ .fixed)
    (t : TraceResult F) (calls : List (PricingCall F)) :
    SamePricing (t, calls) (effect.write t, calls) := by
  have hmark : ∀ index : Int, SamePricing (t, calls) (markMatched index t, calls) := by
    intro index
    unfold markMatched
    split <;> exact ⟨rfl, rfl, rfl, rfl, rfl⟩
  have htrace : ∀ index b (m one : Datum F), SamePricing (t, calls)
    ((traceRule index b m one).write t, calls) := by
    intro index b m one
    unfold traceRule
    split
    · exact hmark index
    · exact SamePricing.refl _
  obtain ⟨hf, -⟩ | ⟨hf, -⟩ | ⟨-, _, _, _, _, rfl⟩ | ⟨-, -, hid⟩ := hostEffect_cases h
  · exact absurd hf h1
  · exact absurd hf h2
  · exact htrace _ _ _ _
  · rw [hid]
    exact SamePricing.refl _

theorem apply_quiet {v : Value F} (hv : Harmless v) (args : List (Value F)) :
    Run.Keeps SamePricing Harmless ((logged (environment P params request imageCount)).apply M v
      args) := by
  cases v with
  | func f =>
    refine quiet_bind (Q := fun _ => True) (Run.Keeps.lift SamePricing.refl fun _ _ => trivial)
      fun passed _ => ?_
    refine quiet_bind (Q := fun _ => True) ?_ fun d _ =>
      Run.Keeps.pure SamePricing.refl (harmless_data d)
    intro s
    refine ⟨?_, fun _ _ => trivial⟩
    have h1 : f ≠ .tier := fun h => hv.1 (by rw [h])
    have h2 : f ≠ .fixed := fun h => hv.2.1 (by rw [h])
    show SamePricing s ((hostCall P _ request f passed s.1).2,
      if f = .tier ∨ f = .fixed then s.2 ++ [(f, passed)] else s.2)
    rw [if_neg (by simp [h1, h2])]
    unfold hostCall
    cases heffect : hostEffect P (normalizeHeaders P request.headers) request f passed with
    | none => exact SamePricing.refl s
    | some effect => exact hostEffect_quiet P request heffect h1 h2 s.1 s.2
  | data d | env => exact Run.Keeps.fail SamePricing.refl

mutual

/-- **A tree that names no pricing function and not `$env` is quiet.** -/
theorem eval_quiet : ∀ (node : Node F) (n : Nat), containsPricingMarker node = false →
    node.mentions (· == envName) = false → Run.Keeps SamePricing Harmless
      (eval M (logged (environment P params request imageCount)) n node)
  | .nil, _, _, _ | .bool _, _, _, _ | .integer _, _, _, _ | .float _, _, _, _
  | .string _, _, _, _ => Run.Keeps.pure SamePricing.refl (harmless_data _)
  | .identifier name, n, hmark, henv =>
    Run.Keeps.lift SamePricing.refl fun _ hv => identifier_harmless hmark henv hv
  | .unary operator node, n, hmark, henv => by
    simp only [eval]
    exact quiet_bind (eval_quiet node n hmark henv) fun v _ => lift_quiet _
  | .binary operator left right, n, hmark, henv => by
    simp only [containsPricingMarker, Node.mentions, Bool.or_eq_false_iff] at hmark henv
    have hright := eval_quiet right (n + ruleCount left) hmark.2 henv.2
    simp only [eval]
    refine quiet_bind (eval_quiet left n hmark.1 henv.1) fun l hl => ?_
    cases operator with
    | and => exact branch_quiet hright (Run.Keeps.pure SamePricing.refl (harmless_data _))
    | or => exact branch_quiet (Run.Keeps.pure SamePricing.refl (harmless_data _)) hright
    | coalesce =>
      dsimp only
      split
      · exact hright
      · exact Run.Keeps.pure SamePricing.refl hl
    | _ => exact quiet_bind hright fun r _ => lift_quiet _
  | .call callee arguments, n, hmark, henv => by
    simp only [containsPricingMarker, Node.mentions, Bool.or_eq_false_iff] at hmark henv
    simp only [eval]
    refine quiet_bind (evalArgs_quiet arguments _ hmark.2 henv.2) fun args _ => ?_
    exact quiet_bind (eval_quiet callee _ hmark.1 henv.1)
      fun v hv => apply_quiet M P params request imageCount hv args
  | .conditional ternary cond exp1 exp2, n, hmark, henv => by
    simp only [containsPricingMarker, Node.mentions, Bool.or_eq_false_iff] at hmark henv
    have h1 := eval_quiet exp1 (n + ruleCount cond) hmark.1.2 henv.1.2
    have h2 := eval_quiet exp2 (n + ruleCount cond + ruleCount exp1) hmark.2 henv.2
    simp only [eval]
    refine quiet_bind (eval_quiet cond n hmark.1.1 henv.1.1) fun v _ => ?_
    split
    · exact branch_quiet h1 h2
    · exact branch_quiet h1 h2
  | .member node property, n, hmark, henv => by
    simp only [containsPricingMarker, Node.mentions, Bool.or_eq_false_iff] at hmark henv
    simp only [eval]
    refine quiet_bind (eval_quiet node n hmark.1 henv.1) fun o ho => ?_
    refine quiet_bind (eval_quiet property _ hmark.2 henv.2) fun p _ => ?_
    refine Run.Keeps.lift SamePricing.refl fun v hv => ?_
    unfold Handler.member at hv
    split at hv
    · exact absurd rfl ho.2.2
    · exact absurd rfl ho.2.2
    · obtain ⟨d, -, rfl⟩ := Option.map_eq_some_iff.mp hv
      exact harmless_data d

theorem evalArgs_quiet : ∀ (nodes : List (Node F)) (n : Nat),
    mentionsAny isPricingMarker nodes = false → mentionsAny (· == envName) nodes = false →
      Run.Keeps SamePricing (fun _ => True) (evalArgs M
        (logged (environment P params request imageCount)) n nodes)
  | [], _, _, _ => Run.Keeps.pure SamePricing.refl trivial
  | node :: rest, n, hmark, henv => by
    simp only [mentionsAny, Bool.or_eq_false_iff] at hmark henv
    simp only [evalArgs]
    refine quiet_bind (eval_quiet node n hmark.1 henv.1) fun v _ => ?_
    refine quiet_bind (evalArgs_quiet rest _ hmark.2 henv.2) fun vs _ => ?_
    exact Run.Keeps.pure SamePricing.refl trivial

end

end Quiet

end TokenGateway.Expression
