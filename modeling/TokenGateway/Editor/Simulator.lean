import TokenGateway.Editor.Simulation

namespace TokenGateway.Editor

open Base Expression List

/-!
# The simulator shows what the biller charges

`evaluateBillingExpression` next to `compileEntryFromCacheByHash` and `runProgram`.

* `patch_multipliers` — both sides collect the rules in the same order;
* `simulator_parity` — a successful simulation is a successful run with the same cost, tier, billing
  unit, fixed price and matched rules, for the calls that both sides treat alike;
* `simulator_differs` — where they do not.
-/

variable {F : Type}

/-! ### The rules of the two sides -/

/-- A rule of a trace, as the editor shows it. -/
def shownRule (rule : RequestRuleTrace F) : BillingRequestRule F := ⟨rule.multiplier, rule.matched⟩

variable {rules : List (RequestRuleTrace F)}

theorem flagged_shown (h : ∀ rule ∈ rules, rule.matched = false) (fired : List Nat) :
    (flagged rules fired).map shownRule =
      (rules.map (·.multiplier)).mapIdx fun i multiplier => ⟨multiplier, decide (i ∈ fired)⟩ := by
  apply ext_getElem
  · simp [flagged]
  intro i h1 h2
  have hi : i < rules.length := by simpa using h2
  have hold := h rules[i] (getElem_mem hi)
  simp [flagged, shownRule, hold]

mutual

theorem memberFree_toNode : ∀ node : ExpressionNode F, (toNode node).memberFree = true
  | .literal value => by cases value <;> rfl
  | .variable _ => rfl
  | .call _ args => memberFreeArgs_toNodes args
  | .unary _ operand => memberFree_toNode operand
  | .binary .. | .conditional .. => by
    simp [toNode, Node.memberFree, memberFree_toNode]

theorem memberFreeArgs_toNodes :
    ∀ nodes : List (ExpressionNode F), memberFreeArgs (toNodes nodes) = true
  | [] => rfl
  | node :: rest => by
    simp [toNodes, memberFreeArgs, memberFree_toNode, memberFreeArgs_toNodes]

end

variable [Arithmetic F]

/-- A conditional of the backend that is a rule iff the editor's is, with its multiplier. -/
theorem visit_multipliers {condition yes no : ExpressionNode F} {cond exp1 exp2 : Node F}
    (hprobe : usesRequestProbe cond = calls isProbe condition)
    (hyes : requestRuleNumber exp1 = literalNumber yes)
    (hno : requestRuleNumber exp2 = literalNumber no) (path : List Nat)
    (rules : List (RequestRuleTrace F)) :
    (visit (.conditional true cond exp1 exp2) rules).2.map (·.multiplier) =
      rules.map (·.multiplier) ++ (ruleOf path (.conditional condition yes no)).toList.map
        (·.multiplier) := by
  simp only [visit, ruleOf, hprobe, hyes, hno]
  cases literalNumber yes with
  | none => cases calls isProbe condition <;> simp
  | some multiplier =>
    cases literalNumber no with
    | none => cases calls isProbe condition <;> simp
    | some fallback =>
      by_cases hone : Float64.eq fallback (Float64.ofInt 1) = true <;>
        by_cases hp : calls isProbe condition = true <;> simp [hone, hp]

mutual

theorem patch_multipliers : ∀ (node : ExpressionNode F) (path : List Nat)
    (rules : List (RequestRuleTrace F)),
    (patch (toNode node) rules).2.map (·.multiplier) =
      rules.map (·.multiplier) ++ (requestRules path node).map (·.multiplier)
  | .literal value, _, rules => by cases value <;> exact (append_nil _).symm
  | .variable _, _, rules => (append_nil _).symm
  | .call name args, path, rules => patchArgs_multipliers args path 0 rules
  | .unary _ operand, path, rules => patch_multipliers operand (path ++ [0]) rules
  | .binary _ left right, path, rules => by
    simp only [toNode, patch, requestRules]
    rw [patch_multipliers, patch_multipliers, map_append, append_assoc]
  | .conditional condition yes no, path, rules => by
    have hprobe : usesRequestProbe (patch (toNode condition) rules).1 =
      calls isProbe condition := by
      rw [(patch_spec (toNode condition) rules).1, usesRequestProbe,
        mentions_patchAt ignoresTrace_probe]
      exact usesRequestProbe_toNode condition
    have hnumber : ∀ (part : ExpressionNode F) (rs : List (RequestRuleTrace F)),
        requestRuleNumber (patch (toNode part) rs).1 = literalNumber part := by
      intro part rs
      rw [(patch_spec (toNode part) rs).1, requestRuleNumber_patchAt, requestRuleNumber_toNode_eq]
    simp only [toNode, patch, requestRules]
    rw [visit_multipliers hprobe (hnumber yes _) (hnumber no _) path,
      patch_multipliers no (path ++ [2]), patch_multipliers yes (path ++ [1]),
      patch_multipliers condition (path ++ [0])]
    simp

theorem patchArgs_multipliers : ∀ (nodes : List (ExpressionNode F)) (path : List Nat) (i : Nat)
    (rules : List (RequestRuleTrace F)),
    (patchArgs (toNodes nodes) rules).2.map (·.multiplier) =
      rules.map (·.multiplier) ++ (requestRulesOf path i nodes).map (·.multiplier)
  | [], _, _, _ => (append_nil _).symm
  | node :: rest, path, i, rules => by
    simp only [toNodes, patchArgs, requestRulesOf]
    rw [patchArgs_multipliers, patch_multipliers, map_append, append_assoc]

end

/-! ### The backend's run -/

variable {M : Machine F}

theorem compileEntry_instrument {tree : Node F} {entry : CachedEntry F}
    (h : compileEntry M tree = .ok entry) :
    tree.mentions isReserved = false ∧ instrument M tree =
      some (entry.prog, entry.requestRules) := by
  unfold compileEntry at h
  split at h
  · cases h
  split at h
  · cases h
  next hreserved =>
  split at h
  · cases h
  next prog hprog =>
  cases h
  refine ⟨Bool.eq_false_iff.mpr hreserved, ?_⟩
  rw [instrument, if_neg hreserved, hprog]
  rfl

variable {P : Platform F} {params : TokenParams F} {request : RequestInput F}

/-- A run of the instrumented program, from a successful run as written. -/
theorem runProgram_of_written {written : Node F} (heven : evenRules written = true)
    (hfree : written.memberFree = true) (hres : written.mentions isReserved = false)
    {imageCount : Int} {f : F}
    {trace : TraceResult F} {fired : List Nat}
    (hcount : imageCountFor (usesImageCount written) request = some imageCount)
    (hrun : runFloat M (asWritten M P params request imageCount) written
      (initialTrace (usesImageCount written) imageCount [], []) = (some f, trace, fired)) :
    runProgram M P (patchAt 0 written) rules params request =
      (.ok f, { trace with requestRules := flagged rules fired }) := by
  unfold runProgram
  rw [usesImageCount_patchAt, hcount]
  dsimp only
  rw [runFloat_patchAt M P params request rules heven hfree hres, hrun]

/-! ### Parity -/

variable {B : Browser F} {context : Context F}

theorem imageCountFor_context (hcontext : SameContext B P context params request) (uses : Bool)
    (h : uses = true → 1 ≤ context.imageCount.getD 1 ∧ context.imageCount.getD 1 ≤ maxImageN) :
    ∃ imageCount, imageCountFor uses request = some imageCount ∧
      (uses = true → context.imageCount.getD 1 = imageCount) := by
  cases uses with
  | false => exact ⟨1, rfl, nofun⟩
  | true =>
    obtain ⟨hlow, hhigh⟩ := h rfl
    have hrange : ¬ (request.imageCount.getD 1 < 1 ∨ maxImageN < request.imageCount.getD 1) := by
      rw [← hcontext.imageCount]
      omega
    simp [imageCountFor, if_neg hrange, hcontext.imageCount]

theorem evaluation_inv {ast : ExpressionNode F}
    {result : Evaluation F} (h : evaluateBillingExpression B ast context = some result) :
    ∃ d runtime, runTree B ast context = (some d, runtime) ∧ numeric d = some result.cost ∧
      result.billingUnit = runtime.billingUnit ∧ result.fixedPrice = runtime.fixedPrice ∧
      result.matchedTier = runtime.matchedTier ∧ result.requestRules = runtime.requestRules := by
  unfold evaluateBillingExpression at h
  split at h
  · obtain ⟨cost, hcost, hresult⟩ := Option.bind_eq_some_iff.mp h
    obtain ⟨d, hd, hnumber⟩ := Option.bind_eq_some_iff.mp hcost
    split at hresult
    · cases hresult
      exact ⟨d, _, Prod.ext hd rfl, hnumber, rfl, rfl, rfl, rfl⟩
    · cases hresult
  · cases h

/-- **Simulator parity.** Expr-lang computes the shared operators and the libraries the shared texts
    and times as the editor does, and both sides see one request. Then a successful simulation of an
    accepted expression is a successful run with the same cost, tier, billing unit, fixed price and
    matched rules, if both sides treat the arguments of its calls alike, an image count that the
    expression names is admissible, and an expression with `%` has no mixed rules. -/
theorem simulator_parity (M : Machine F) (P : Platform F) (B : Browser F)
    (hM : SharesOperators M B) (hP : SharesPlatform B P) (ast : ExpressionNode F)
    (context : Context F) (params : TokenParams F) (request : RequestInput F)
    (hcontext : SameContext B P context params request) (entry : CachedEntry F)
    (hentry : compileEntry M (toNode ast) = .ok entry) (result : Evaluation F)
    (hresult : evaluateBillingExpression B ast context = some result)
    (hcalls : ∀ call ∈ (runTree B ast context).2.calls, Alike M P B call)
    (hcount : reads .imageCount ast = true → 1 ≤ context.imageCount.getD 1 ∧
      context.imageCount.getD 1 ≤ maxImageN)
    (hmodulo : usesModulo ast = false ∨ evenRules (toNode ast) = true) :
    ∃ trace, runProgram M P entry.prog entry.requestRules params request =
      (.ok result.cost, trace) ∧
      trace.matchedTier = result.matchedTier ∧ trace.billingUnit = result.billingUnit ∧
      trace.fixedPrice = result.fixedPrice ∧
      trace.requestRules.map shownRule = result.requestRules := by
  obtain ⟨hres, hinstrument⟩ := compileEntry_instrument hentry
  rw [instrument_eq M hres] at hinstrument
  obtain ⟨written, hwritten, hpair⟩ := Option.map_eq_some_iff.mp hinstrument
  injection hpair with hprog hrules
  have hnode : written = convert M (readNode ast) := compile_eq_some hwritten
  -- the compiled tree keeps what the run needs of the tree as written
  have heven : evenRules written = true := by
    rw [hnode, evenRules_convert, readNode, evenRules_floatRules]
  have hfree : written.memberFree = true := by
    rw [hnode, memberFree_convert, readNode, memberFree_floatRules, memberFree_toNode]
  have hres' : written.mentions isReserved = false := by
    rw [hnode, mentions_convert, readNode, mentions_floatRules, hres]
  have huses : usesImageCount written = reads .imageCount ast := by
    rw [hnode, usesImageCount, mentions_convert, readNode, mentions_floatRules]
    exact mentions_variable .imageCount ast
  obtain ⟨imageCount, himage, hagree⟩ := imageCountFor_context hcontext _ hcount
  -- the simulation is matched by the run as written
  obtain ⟨d, runtime, hrun, hcost, hunit, hprice, htier, hmatched⟩ := evaluation_inv hresult
  have hok : CallsAlike M P B runtime := by
    rw [hrun] at hcalls
    exact hcalls
  obtain ⟨exact, hsuits⟩ : ∃ exact, Suits exact (context.imageCount.getD 1 = imageCount) ast := by
    rcases hmodulo with hmod | heven
    · exact ⟨false, suits_of ast (fun _ => hmod) (by simp) hagree⟩
    · exact ⟨true, suits_of ast (by simp) (fun _ => heven) hagree⟩
  have hrefined := @evaluate_refined F _ ⟨M, P, B, context, params, request, imageCount,
    requestRules [] ast,
    (requestRules [] ast).map (·.multiplier)⟩ ⟨hM, hP, hcontext⟩ exact ast [] 0
      (placed_root ast) hsuits
  obtain ⟨v, ⟨trace, fired⟩, hv, ⟨-, d', rfl, -, hpromotes⟩, hstate⟩ := hrefined.plain _
    (initialTrace (usesImageCount written) imageCount [], [])
    ⟨rfl, rfl, rfl, by apply ext_getElem <;> simp [initialRuntime]⟩ d runtime hrun hok
  have hfloat : runFloat M (asWritten M P params request imageCount) written
      (initialTrace (usesImageCount written) imageCount [], []) =
        (some result.cost, trace, fired) := by
    rw [← hnode] at hv
    have hcast : (Value.data d').asFloat = some result.cost := by
      rw [← hcost, ← hpromotes.numeric]
      cases d' <;> rfl
    rw [runFloat, Run.bind_of_some hv, hcast]
    rfl
  rw [← huses] at himage
  refine ⟨{ trace with requestRules := flagged entry.requestRules fired }, ?_, ?_, ?_, ?_, ?_⟩
  · rw [← hprog]
    exact runProgram_of_written heven hfree hres' himage hfloat
  · rw [htier]
    exact hstate.matchedTier
  · rw [hunit]
    exact hstate.billingUnit
  · rw [hprice]
    exact hstate.fixedPrice
  · have hunmatched : ∀ rule ∈ entry.requestRules, rule.matched = false := by
      rw [← hrules]
      exact patch_unmatched (toNode ast) (by simp)
    rw [flagged_shown hunmatched, hmatched, hstate.requestRules, ← hrules, patch_multipliers]
    rfl

/-! ### Where the two sides differ -/

/-- The operator of the editor that an operator of expr-lang is. -/
def sharedOperator : BinaryOp → Option Operator
  | .or => some .or
  | .and => some .and
  | .eq => some .eq
  | .ne => some .ne
  | .lt => some .lt
  | .le => some .le
  | .gt => some .gt
  | .ge => some .ge
  | .add => some .add
  | .sub => some .sub
  | .mul => some .mul
  | .div => some .div
  | .mod => some .mod
  | _ => none

/-- A machine with the operators of the editor. -/
def sharing (M : Machine F) (B : Browser F) : Machine F :=
  { M with
    unary := fun operator v =>
      match v with
      | .data a => unary operator a
      | _ => none
    binary := fun operator v w =>
      match sharedOperator operator, v, w with
      | some operator, .data a, .data b => binary B operator a b
      | _, _, _ => none }

theorem sharing_shares (M : Machine F) (B : Browser F) : SharesOperators (sharing M B) B where
  unary _ _ _ _ h _ := h
  binary operator _ _ _ _ _ h _ := by cases operator <;> exact h

instance : Arithmetic Whole where
  add a b := ⟨a.val + b.val⟩
  sub a b := ⟨a.val - b.val⟩
  div a b := ⟨a.val / b.val⟩
  neg a := ⟨-a.val⟩
  lt a b := decide (a.val < b.val)
  le a b := decide (a.val ≤ b.val)
  add_ofInt _ _ _ _ _ := rfl
  sub_ofInt _ _ _ _ _ := rfl
  mul_ofInt _ _ _ _ _ := rfl
  neg_ofInt _ _ := rfl

/-- A browser that knows no zones. -/
def plainBrowser : Browser Whole where
  textLt x y := decide (x < y)
  textLe x y := decide (x ≤ y)
  toLowerCase := id
  numberText f := toString f.val
  canonical _ := ""
  jsonText := some
  utc := plainPlatform.utc
  zone _ := none

/-- A server that prints as the browser does. -/
def likePlatform : Platform Whole :=
  { plainPlatform with
    sprint := fun
      | .data d => (billingString plainBrowser d).getD ""
      | _ => "" }

theorem plain_sharesPlatform : SharesPlatform plainBrowser likePlatform where
  text d s _ h := by
    show (billingString plainBrowser d).getD "" = s
    rw [h]
    rfl
  smallInteger _ _ := rfl
  utc := rfl
  zone _ _ _ := rfl

variable (imageCount : Option Int) (usage : List (String × Datum Whole))

/-- A request without body and headers, and no tokens. -/
def plainContext : Context Whole where
  imageCount := imageCount
  tokens _ := some ⟨0⟩
  request := some { body := none, headers := [] }
  usage := some usage

def plainRequest : RequestInput Whole where
  imageCount := imageCount
  usage := some usage

theorem plain_sameContext :
    SameContext plainBrowser likePlatform (plainContext imageCount usage) noTokens
      (plainRequest imageCount usage) where
  tokens v h := by
    cases v with
    | imageCount => exact absurd rfl h
    | _ => rfl
  imageCount := rfl
  usage := ⟨rfl, rfl⟩
  request := by
    refine ⟨_, rfl, fun path d hpath h => ?_, List.Perm.refl [], nofun, nodup_nil⟩
    -- nothing is found in an absent body
    have hnull : ∀ parts, followPath parts (Json.null : Json Whole) = some .null := by
      intro parts
      cases parts <;> rfl
    rw [followRequestPath, if_neg fun hbeq => hpath (eq_of_beq hbeq)] at h
    obtain ⟨parts, -, hparts⟩ := Option.bind_eq_some_iff.mp h
    rw [Option.getD_none, hnull] at hparts
    exact Option.some.inj hparts

/-- expr-lang with the operators of the editor. -/
def sharedLang : Machine Whole := sharing exprLang plainBrowser

/-- `tier("base", u("seconds") * 2) * (param("vip") == nil ? 3 : 1)`. -/
def usagePrice : ExpressionNode Whole :=
  .binary .mul
    (.call .tier [.literal (.string "base"),
      .binary .mul (.call .u [.literal (.string "seconds")]) (.literal (.integer 2))])
    (.conditional (.binary .eq (.call .param [.literal (.string "vip")]) (.literal .null))
      (.literal (.integer 3)) (.literal (.integer 1)))

/-- Five seconds at 2 each, tripled: the simulation shows 30, and so the run charges 30. -/
theorem usagePrice_parity :
    ∃ entry result trace, compileEntry sharedLang (toNode usagePrice) = .ok entry ∧
      evaluateBillingExpression plainBrowser usagePrice
        (plainContext none [("seconds", .float ⟨5⟩)]) = some result ∧
      result.cost = ⟨30⟩ ∧ result.requestRules = [⟨⟨3⟩, true⟩] ∧
      runProgram sharedLang likePlatform entry.prog entry.requestRules noTokens
        (plainRequest none [("seconds", .float ⟨5⟩)]) = (.ok result.cost, trace) ∧
      trace.requestRules.map shownRule = result.requestRules := by
  have hcalls : ∀ call ∈ (runTree plainBrowser usagePrice
      (plainContext none [("seconds", .float ⟨5⟩)])).2.calls,
      Alike sharedLang likePlatform plainBrowser call := by
    intro call h
    obtain rfl | rfl | rfl := mem_cons.mp h |>.imp_right fun h =>
      (mem_cons.mp h).imp_right mem_singleton.mp
    · show jsTrim "vip" = trimSpace "vip"
      decide
    · exact nofun
    · show trimSpace "seconds" = "seconds"
      decide
  obtain ⟨trace, hrun, -, -, -, hrules⟩ := simulator_parity sharedLang likePlatform plainBrowser
    (sharing_shares exprLang plainBrowser) plain_sharesPlatform usagePrice
    (plainContext none [("seconds", .float ⟨5⟩)]) noTokens
    (plainRequest none [("seconds", .float ⟨5⟩)]) (plain_sameContext _ _) _ rfl _ rfl hcalls
    (by decide) (.inl rfl)
  exact ⟨_, _, trace, rfl, rfl, rfl, rfl, hrun, hrules⟩

/-- `u(" seconds ") == nil ? 1 : 2`. -/
def paddedName : ExpressionNode Whole :=
  .conditional (.binary .eq (.call .u [.literal (.string " seconds ")]) (.literal .null))
    (.literal (.integer 1)) (.literal (.integer 2))

/-- `true ? 1 : image_count`. -/
def unreadImages : ExpressionNode Whole :=
  .conditional (.literal (.boolean true)) (.literal (.integer 1)) (.variable .imageCount)

/-- `tier("night", hour("UTC"))`. -/
def hourlyPrice : ExpressionNode Whole :=
  .call .tier [.literal (.string "night"), .call .hour [.literal (.string "UTC")]]

/-- `(true ? (param("a") == 1 ? 2.0 : 1) : 3) % 2`. -/
def mixedRemainder : ExpressionNode Whole :=
  .binary .mod
    (.conditional (.literal (.boolean true))
      (.conditional (.binary .eq (.call .param [.literal (.string "a")]) (.literal (.integer 1)))
        (.literal (.decimal ⟨2⟩)) (.literal (.integer 1)))
      (.literal (.integer 3)))
    (.literal (.integer 2))

/-- The costs the two sides give, on a request that both see. -/
def bothCosts (ast : ExpressionNode Whole) (imageCount : Option Int)
    (usage : List (String × Datum Whole)) : Option Whole × Option (Except RunError Whole) :=
  ((evaluateBillingExpression plainBrowser ast (plainContext imageCount usage)).map (·.cost),
    match compileEntry sharedLang (toNode ast) with
    | .ok entry => some (runProgram sharedLang likePlatform entry.prog entry.requestRules noTokens
        (plainRequest imageCount usage)).1
    | .error _ => none)

/-- **Where the simulation differs from the run**, with the same operators, libraries and request:
    the editor does not trim the name of a usage fact, it checks the image count only when it is
    read, it hands integers to functions of floats, and it keeps the integer of a mixed rule. -/
theorem simulator_differs :
    (∀ imageCount usage, SameContext plainBrowser likePlatform (plainContext imageCount usage)
      noTokens (plainRequest imageCount usage)) ∧
    bothCosts paddedName none [("seconds", .float ⟨5⟩)] = (some ⟨1⟩, some (.ok ⟨2⟩)) ∧
    bothCosts unreadImages (some 200) [] = (some ⟨1⟩, some (.error .imageCount)) ∧
    bothCosts hourlyPrice none [] = (some ⟨9⟩, some (.error .exprRun)) ∧
    bothCosts mixedRemainder none [] = (some ⟨1⟩, some (.error .exprRun)) :=
  ⟨plain_sameContext, by decide, by decide, by decide, by decide⟩

end TokenGateway.Editor
