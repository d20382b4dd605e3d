import TokenGateway.Expression.Machine

namespace TokenGateway.Expression

/-!
# The request-rule instrumentation

`requestRulePatcher` (`pkg/billingexpr/compile.go`) replaces every conditional of the form
`<request-probe condition> ? <number> : 1` by a call of `_trace` or `_trace_int`, which returns
the number or 1 and records the match.  expr-lang walks the tree in post-order, so the parts of a
conditional are patched before the conditional itself.

* `patch` — the walk, with the list of rules found so far;
* `patchAt` — the same tree as a function of the number of the first rule (`patch_fst`);
* `floatRules` — the tree with both numbers of a rule read as floats when only one of them is
  written as an integer; instrumentation does not see the difference (`patchAt_floatRules`);
* `evenRules` — no rule is mixed in this way.
-/

variable {F : Type} [Float64 F]

/-! ### The walk -/

variable {ternary : Bool} {cond exp1 exp2 : Node F}

structure RequestRuleTrace (F : Type) where
  cond : Node F
  multiplier : F
  matched : Bool := false

/-- The multiplier of a rule as a `float64` literal. -/
def multiplierNode (exp1 : Node F) : Node F :=
  match requestRuleNumber exp1 with
  | some multiplier => .float multiplier
  | none => exp1

/-- The call that replaces a rule; only a rule with two integer literals keeps the type `int`. -/
def traceCall (ruleIndex : Nat) (cond exp1 exp2 : Node F) : Node F :=
  match exp1, exp2 with
  | .integer _, .integer _ =>
    .call (.identifier requestRuleTraceIntFunction) [.integer ruleIndex, cond, exp1]
  | _, _ =>
    .call (.identifier requestRuleTraceFunction) [.integer ruleIndex, cond, multiplierNode exp1]

/-- `requestRulePatcher.Visit`, on a node that is not an identifier. -/
def visit (node : Node F) (rules : List (RequestRuleTrace F)) :
    Node F × List (RequestRuleTrace F) :=
  match node with
  | .conditional true cond exp1 exp2 =>
    if usesRequestProbe cond then
      match requestRuleNumber exp1, requestRuleNumber exp2 with
      | some multiplier, some fallback =>
        if Float64.eq fallback (Float64.ofInt 1) then
          (traceCall rules.length cond exp1 exp2, rules ++ [{ cond, multiplier }])
        else (node, rules)
      | _, _ => (node, rules)
    else (node, rules)
  | _ => (node, rules)

mutual

/-- `ast.Walk` with the patcher: the parts first, then the node. -/
def patch : Node F → List (RequestRuleTrace F) → Node F × List (RequestRuleTrace F)
  | .unary operator node, rules =>
    let node' := patch node rules
    (.unary operator node'.1, node'.2)
  | .binary operator left right, rules =>
    let left' := patch left rules
    let right' := patch right left'.2
    (.binary operator left'.1 right'.1, right'.2)
  | .call callee arguments, rules =>
    let callee' := patch callee rules
    let arguments' := patchArgs arguments callee'.2
    (.call callee'.1 arguments'.1, arguments'.2)
  | .conditional ternary cond exp1 exp2, rules =>
    let cond' := patch cond rules
    let exp1' := patch exp1 cond'.2
    let exp2' := patch exp2 exp1'.2
    visit (.conditional ternary cond'.1 exp1'.1 exp2'.1) exp2'.2
  | .member node property, rules =>
    let node' := patch node rules
    let property' := patch property node'.2
    (.member node'.1 property'.1, property'.2)
  | node, rules => (node, rules)

def patchArgs : List (Node F) → List (RequestRuleTrace F) →
    List (Node F) × List (RequestRuleTrace F)
  | [], rules => ([], rules)
  | node :: rest, rules =>
    let node' := patch node rules
    let rest' := patchArgs rest node'.2
    (node'.1 :: rest'.1, rest'.2)

end

mutual

/-- The instrumented tree, when `n` rules come before it. -/
def patchAt (n : Nat) : Node F → Node F
  | .unary operator node => .unary operator (patchAt n node)
  | .binary operator left right =>
    .binary operator (patchAt n left) (patchAt (n + ruleCount left) right)
  | .call callee arguments =>
    .call (patchAt n callee) (patchArgsAt (n + ruleCount callee) arguments)
  | .conditional ternary cond exp1 exp2 =>
    if isRequestRule (.conditional ternary cond exp1 exp2) then
      traceCall (n + ruleCount cond + ruleCount exp1 + ruleCount exp2) (patchAt n cond) exp1 exp2
    else
      .conditional ternary (patchAt n cond) (patchAt (n + ruleCount cond) exp1)
        (patchAt (n + ruleCount cond + ruleCount exp1) exp2)
  | .member node property => .member (patchAt n node) (patchAt (n + ruleCount node) property)
  | node => node

def patchArgsAt (n : Nat) : List (Node F) → List (Node F)
  | [] => []
  | node :: rest => patchAt n node :: patchArgsAt (n + ruleCount node) rest

end

theorem patchAt_rule (n : Nat) (h : isRequestRule (.conditional ternary cond exp1 exp2) = true) :
    patchAt n (.conditional ternary cond exp1 exp2) =
      traceCall (n + ruleCount cond + ruleCount exp1 + ruleCount exp2)
        (patchAt n cond) exp1 exp2 := by
  simp [patchAt, h]

theorem patchAt_conditional (n : Nat)
    (h : isRequestRule (.conditional ternary cond exp1 exp2) = false) :
    patchAt n (.conditional ternary cond exp1 exp2) =
      .conditional ternary (patchAt n cond) (patchAt (n + ruleCount cond) exp1)
        (patchAt (n + ruleCount cond + ruleCount exp1) exp2) := by
  simp [patchAt, h]

/-! ### What a rule looks like -/

theorem isRequestRule_iff :
    isRequestRule (.conditional ternary cond exp1 exp2) = true ↔
      ternary = true ∧ usesRequestProbe cond = true ∧ (requestRuleNumber exp1).isSome = true ∧
        (requestRuleNumber exp2).any (fun f => Float64.eq f (Float64.ofInt 1)) = true := by
  cases ternary with
  | false => simp [isRequestRule]
  | true => simp [isRequestRule, and_assoc]

theorem number_cases (node : Node F) (h : (requestRuleNumber node).isSome = true) :
    node.IsNumber := by
  cases node with
  | integer i => exact .inl ⟨i, rfl⟩
  | float f => exact .inr ⟨f, rfl⟩
  | _ => simp [requestRuleNumber] at h

theorem rule_literals (h : isRequestRule (.conditional ternary cond exp1 exp2) = true) :
    ternary = true ∧ exp1.IsNumber ∧ exp2.IsNumber := by
  obtain ⟨ht, -, h1, h2⟩ := isRequestRule_iff.mp h
  refine ⟨ht, number_cases _ h1, number_cases _ ?_⟩
  cases hn : requestRuleNumber exp2 with
  | none => simp [hn] at h2
  | some f => rfl

/-- Whether a conditional is a rule depends on the probes of its condition and the numbers of its
    branches only. -/
theorem isRequestRule_congr {cond' exp1' exp2' : Node F}
    (hc : usesRequestProbe cond' = usesRequestProbe cond)
    (h1 : requestRuleNumber exp1' = requestRuleNumber exp1)
    (h2 : requestRuleNumber exp2' = requestRuleNumber exp2) :
    isRequestRule (.conditional ternary cond' exp1' exp2') =
      isRequestRule (.conditional ternary cond exp1 exp2) := by
  cases ternary with
  | false => rfl
  | true => simp [isRequestRule, hc, h1, h2]

/-- Visiting a conditional instruments it iff it is a rule. -/
theorem visit_conditional (ternary : Bool) (cond exp1 exp2 : Node F)
    (rules : List (RequestRuleTrace F)) :
    ∃ found, visit (.conditional ternary cond exp1 exp2) rules =
        (if isRequestRule (.conditional ternary cond exp1 exp2) then
            traceCall rules.length cond exp1 exp2
          else .conditional ternary cond exp1 exp2, rules ++ found) ∧
      found.length = (isRequestRule (.conditional ternary cond exp1 exp2)).toNat := by
  cases ternary with
  | false => exact ⟨[], by simp [visit, isRequestRule], rfl⟩
  | true =>
    cases hp : usesRequestProbe cond with
    | false => exact ⟨[], by simp [visit, isRequestRule, hp], by simp [isRequestRule, hp]⟩
    | true =>
      cases h1 : requestRuleNumber exp1 with
      | none => exact ⟨[], by simp [visit, isRequestRule, h1], by simp [isRequestRule, h1]⟩
      | some multiplier =>
        cases h2 : requestRuleNumber exp2 with
        | none =>
          exact ⟨[], by simp [visit, isRequestRule, h2], by simp [isRequestRule, h2]⟩
        | some fallback =>
          cases hone : Float64.eq fallback (Float64.ofInt 1) with
          | false =>
            exact ⟨[], by simp [visit, isRequestRule, h1, h2, hone],
              by simp [isRequestRule, h2, hone]⟩
          | true =>
            exact ⟨[{ cond, multiplier }], by simp [visit, isRequestRule, hp, h1, h2, hone],
              by simp [isRequestRule, hp, h1, h2, hone]⟩

/-! ### Instrumenting keeps the names and the numbers -/

variable {node : Node F}

/-- A test of names that the trace functions do not satisfy. -/
def IgnoresTrace (p : String → Bool) : Prop :=
  p requestRuleTraceFunction = false ∧ p requestRuleTraceIntFunction = false

theorem ignoresTrace_probe : IgnoresTrace isRequestProbe := by
  constructor <;> decide

theorem mentions_traceCall {p : String → Bool} (hp : IgnoresTrace p) (index : Nat)
    (h1 : exp1.IsNumber) (h2 : exp2.IsNumber) :
    (traceCall index cond exp1 exp2).mentions p = cond.mentions p := by
  obtain ⟨i, rfl⟩ | ⟨f, rfl⟩ := h1 <;> obtain ⟨j, rfl⟩ | ⟨g, rfl⟩ := h2 <;>
    simp [traceCall, multiplierNode, requestRuleNumber, Node.mentions, mentionsAny, hp.1, hp.2]

mutual

theorem mentions_patchAt {p : String → Bool} (hp : IgnoresTrace p) (node : Node F) (n : Nat) :
    (patchAt n node).mentions p = node.mentions p := by
  cases node with
  | conditional ternary cond exp1 exp2 =>
    cases hrule : isRequestRule (.conditional ternary cond exp1 exp2) with
    | true =>
      obtain ⟨-, h1, h2⟩ := rule_literals hrule
      rw [patchAt_rule n hrule, mentions_traceCall hp _ h1 h2, mentions_patchAt hp]
      simp [Node.mentions, mentions_number p h1, mentions_number p h2]
    | false => simp [patchAt_conditional n hrule, Node.mentions, mentions_patchAt hp]
  | _ => simp [patchAt, Node.mentions, mentions_patchAt hp, mentionsAny_patchArgsAt hp]

theorem mentionsAny_patchArgsAt {p : String → Bool} (hp : IgnoresTrace p) (nodes : List (Node F))
    (n : Nat) : mentionsAny p (patchArgsAt n nodes) = mentionsAny p nodes := by
  cases nodes <;>
    simp [patchArgsAt, mentionsAny, mentions_patchAt hp, mentionsAny_patchArgsAt hp]

end

theorem patchAt_conditional_cases (ternary : Bool) (cond exp1 exp2 : Node F) (n : Nat) :
    (∃ cond' exp1' exp2', patchAt n (.conditional ternary cond exp1 exp2) =
      .conditional ternary cond' exp1' exp2') ∨
      ∃ callee arguments, patchAt n (.conditional ternary cond exp1 exp2) =
        .call callee arguments := by
  cases hrule : isRequestRule (.conditional ternary cond exp1 exp2) with
  | true =>
    obtain ⟨-, h1, h2⟩ := rule_literals hrule
    rw [patchAt_rule n hrule]
    obtain ⟨i, rfl⟩ | ⟨f, rfl⟩ := h1 <;> obtain ⟨j, rfl⟩ | ⟨g, rfl⟩ := h2 <;> exact .inr ⟨_, _, rfl⟩
  | false => exact .inl ⟨_, _, _, patchAt_conditional n hrule⟩

theorem requestRuleNumber_patchAt (node : Node F) (n : Nat) :
    requestRuleNumber (patchAt n node) = requestRuleNumber node := by
  cases node with
  | conditional ternary cond exp1 exp2 =>
    obtain ⟨_, _, _, h⟩ | ⟨_, _, h⟩ := patchAt_conditional_cases ternary cond exp1 exp2 n <;>
      rw [h] <;> rfl
  | _ => rfl

/-- A conditional is a rule after its parts were instrumented iff it was one before. -/
theorem isRequestRule_patchAt (ternary : Bool) (cond exp1 exp2 : Node F) (n k m : Nat) :
    isRequestRule (.conditional ternary (patchAt n cond) (patchAt k exp1) (patchAt m exp2)) =
      isRequestRule (.conditional ternary cond exp1 exp2) :=
  isRequestRule_congr (mentions_patchAt ignoresTrace_probe cond n)
    (requestRuleNumber_patchAt exp1 k) (requestRuleNumber_patchAt exp2 m)

theorem patchAt_number (n : Nat) (h : node.IsNumber) : patchAt n node = node := by
  obtain ⟨i, rfl⟩ | ⟨f, rfl⟩ := h <;> rfl

section Adds

variable {α : Type} {rules rules' rules'' : List α} {n m : Nat}

/-- A list with `n` more rules at its end. -/
def Adds (n : Nat) (rules rules' : List α) : Prop :=
  ∃ found, rules' = rules ++ found ∧ found.length = n

theorem Adds.refl (rules : List α) : Adds 0 rules rules := ⟨[], (List.append_nil _).symm, rfl⟩

theorem Adds.trans (h : Adds n rules rules') (h' : Adds m rules' rules'') :
    Adds (n + m) rules rules'' := by
  obtain ⟨found, rfl, rfl⟩ := h
  obtain ⟨found', rfl, rfl⟩ := h'
  exact ⟨found ++ found', List.append_assoc _ _ _, List.length_append⟩

theorem Adds.length_eq (h : Adds n rules rules') : rules'.length = rules.length + n := by
  obtain ⟨found, rfl, rfl⟩ := h
  exact List.length_append

end Adds

mutual

/-- **The walk computes `patchAt`.** The rules it adds are counted by `ruleCount`. -/
theorem patch_spec : ∀ (node : Node F) (rules : List (RequestRuleTrace F)),
    (patch node rules).1 = patchAt rules.length node ∧
      Adds (ruleCount node) rules (patch node rules).2
  | .nil, rules | .bool _, rules | .integer _, rules | .float _, rules | .string _, rules
  | .identifier _, rules => ⟨rfl, .refl rules⟩
  | .unary operator node, rules => by
    obtain ⟨h, hadds⟩ := patch_spec node rules
    exact ⟨by simp [patch, patchAt, h], hadds⟩
  | .binary operator left right, rules => by
    obtain ⟨hl, hleft⟩ := patch_spec left rules
    obtain ⟨hr, hright⟩ := patch_spec right (patch left rules).2
    exact ⟨by simp [patch, patchAt, hl, hr, hleft.length_eq], hleft.trans hright⟩
  | .call callee arguments, rules => by
    obtain ⟨hl, hleft⟩ := patch_spec callee rules
    obtain ⟨hr, hright⟩ := patchArgs_spec arguments (patch callee rules).2
    exact ⟨by simp [patch, patchAt, hl, hr, hleft.length_eq], hleft.trans hright⟩
  | .conditional ternary cond exp1 exp2, rules => by
    obtain ⟨hc, hcond⟩ := patch_spec cond rules
    obtain ⟨h1, hexp1⟩ := patch_spec exp1 (patch cond rules).2
    obtain ⟨h2, hexp2⟩ := patch_spec exp2 (patch exp1 (patch cond rules).2).2
    obtain ⟨found, hvisit, hfound⟩ := visit_conditional ternary
      (patchAt rules.length cond) (patchAt (rules.length + ruleCount cond) exp1)
      (patchAt (rules.length + ruleCount cond + ruleCount exp1) exp2)
      (patch exp2 (patch exp1 (patch cond rules).2).2).2
    rw [isRequestRule_patchAt] at hvisit hfound
    have hlength := (hcond.trans hexp1).length_eq
    simp only [patch, hc, h1, h2, hcond.length_eq, hlength, ← Nat.add_assoc] at hvisit ⊢
    rw [hvisit]
    refine ⟨?_, ((hcond.trans hexp1).trans hexp2).trans ⟨found, rfl, hfound⟩⟩
    cases hrule : isRequestRule (.conditional ternary cond exp1 exp2) with
    | true =>
      obtain ⟨-, hn1, hn2⟩ := rule_literals hrule
      rw [patchAt_rule _ hrule, ((hcond.trans hexp1).trans hexp2).length_eq, patchAt_number _ hn1,
        patchAt_number _ hn2, Nat.add_assoc, Nat.add_assoc, Nat.add_assoc]
      rfl
    | false =>
      rw [patchAt_conditional _ hrule]
      rfl
  | .member node property, rules => by
    obtain ⟨hl, hleft⟩ := patch_spec node rules
    obtain ⟨hr, hright⟩ := patch_spec property (patch node rules).2
    exact ⟨by simp [patch, patchAt, hl, hr, hleft.length_eq], hleft.trans hright⟩

theorem patchArgs_spec : ∀ (nodes : List (Node F)) (rules : List (RequestRuleTrace F)),
    (patchArgs nodes rules).1 = patchArgsAt rules.length nodes ∧
      Adds (ruleCounts nodes) rules (patchArgs nodes rules).2
  | [], rules => ⟨rfl, .refl rules⟩
  | node :: rest, rules => by
    obtain ⟨hl, hleft⟩ := patch_spec node rules
    obtain ⟨hr, hright⟩ := patchArgs_spec rest (patch node rules).2
    exact ⟨by simp [patchArgs, patchArgsAt, hl, hr, hleft.length_eq], hleft.trans hright⟩

end

/-! ### Mixed rules

A rule that pairs an integer with a float literal, such as `… ? 2.5 : 1`, becomes a call that
returns a float in both cases. -/

/-- The two numbers of a rule written alike: both integers, or both floats. -/
def sameKind : Node F → Node F → Bool
  | .integer _, .integer _ => true
  | .float _, .float _ => true
  | _, _ => false

def floatNumber : Node F → Node F
  | .integer value => .float (Float64.ofInt value)
  | node => node

mutual

/-- No rule of the tree is mixed. -/
def evenRules : Node F → Bool
  | .unary _ node => evenRules node
  | .binary _ left right => evenRules left && evenRules right
  | .call callee arguments => evenRules callee && evenRulesArgs arguments
  | .conditional ternary cond exp1 exp2 =>
    evenRules cond && evenRules exp1 && evenRules exp2 &&
      (!isRequestRule (.conditional ternary cond exp1 exp2) || sameKind exp1 exp2)
  | .member node property => evenRules node && evenRules property
  | _ => true

def evenRulesArgs : List (Node F) → Bool
  | [] => true
  | node :: rest => evenRules node && evenRulesArgs rest

end

mutual

/-- The tree with both numbers of every mixed rule read as floats. -/
def floatRules : Node F → Node F
  | .unary operator node => .unary operator (floatRules node)
  | .binary operator left right => .binary operator (floatRules left) (floatRules right)
  | .call callee arguments => .call (floatRules callee) (floatRulesArgs arguments)
  | .conditional ternary cond exp1 exp2 =>
    if isRequestRule (.conditional ternary cond exp1 exp2) && !sameKind exp1 exp2 then
      .conditional ternary (floatRules cond) (floatNumber exp1) (floatNumber exp2)
    else .conditional ternary (floatRules cond) (floatRules exp1) (floatRules exp2)
  | .member node property => .member (floatRules node) (floatRules property)
  | node => node

def floatRulesArgs : List (Node F) → List (Node F)
  | [] => []
  | node :: rest => floatRules node :: floatRulesArgs rest

end

section

variable (node : Node F)

theorem requestRuleNumber_floatNumber :
    requestRuleNumber (floatNumber node) = requestRuleNumber node := by
  cases node <;> rfl

theorem mentions_floatNumber (p : String → Bool) :
    (floatNumber node).mentions p = node.mentions p := by
  cases node <;> rfl

theorem ruleCount_floatNumber : ruleCount (floatNumber node) = ruleCount node := by
  cases node <;> rfl

theorem memberFree_floatNumber : (floatNumber node).memberFree = node.memberFree := by
  cases node <;> rfl

end

theorem floatRules_number (h : node.IsNumber) : floatRules node = node := by
  obtain ⟨i, rfl⟩ | ⟨f, rfl⟩ := h <;> rfl

theorem floatRules_conditional (ternary : Bool) (cond exp1 exp2 : Node F) :
    (isRequestRule (.conditional ternary cond exp1 exp2) = true ∧ sameKind exp1 exp2 = false ∧
      floatRules (.conditional ternary cond exp1 exp2) =
        .conditional ternary (floatRules cond) (floatNumber exp1) (floatNumber exp2)) ∨
    ((isRequestRule (.conditional ternary cond exp1 exp2) = true → sameKind exp1 exp2 = true) ∧
      floatRules (.conditional ternary cond exp1 exp2) =
        .conditional ternary (floatRules cond) (floatRules exp1) (floatRules exp2)) := by
  cases hrule : isRequestRule (.conditional ternary cond exp1 exp2) with
  | false => exact .inr ⟨nofun, by simp [floatRules, hrule]⟩
  | true =>
    cases hkind : sameKind exp1 exp2 with
    | false => exact .inl ⟨rfl, rfl, by simp [floatRules, hrule, hkind]⟩
    | true => exact .inr ⟨fun _ => rfl, by simp [floatRules, hkind]⟩

theorem requestRuleNumber_floatRules (node : Node F) :
    requestRuleNumber (floatRules node) = requestRuleNumber node := by
  cases node with
  | conditional ternary cond exp1 exp2 =>
    obtain ⟨-, -, h⟩ | ⟨-, h⟩ := floatRules_conditional ternary cond exp1 exp2 <;> rw [h] <;> rfl
  | _ => rfl

mutual

theorem mentions_floatRules (p : String → Bool) (node : Node F) :
    (floatRules node).mentions p = node.mentions p := by
  cases node with
  | conditional ternary cond exp1 exp2 =>
    obtain ⟨-, -, h⟩ | ⟨-, h⟩ := floatRules_conditional ternary cond exp1 exp2 <;>
      simp [h, Node.mentions, mentions_floatRules, mentions_floatNumber]
  | _ => simp [floatRules, Node.mentions, mentions_floatRules, mentionsAny_floatRulesArgs]

theorem mentionsAny_floatRulesArgs (p : String → Bool) (nodes : List (Node F)) :
    mentionsAny p (floatRulesArgs nodes) = mentionsAny p nodes := by
  cases nodes <;>
    simp [floatRulesArgs, mentionsAny, mentions_floatRules, mentionsAny_floatRulesArgs]

end

/-- What `floatRules` makes of a conditional is a rule iff the conditional was one. -/
theorem isRequestRule_floatRules (ternary : Bool) (cond exp1 exp2 : Node F) :
    isRequestRule (floatRules (.conditional ternary cond exp1 exp2)) =
      isRequestRule (.conditional ternary cond exp1 exp2) := by
  obtain ⟨-, -, h⟩ | ⟨-, h⟩ := floatRules_conditional ternary cond exp1 exp2
  · rw [h]
    exact isRequestRule_congr (mentions_floatRules _ cond) (requestRuleNumber_floatNumber exp1)
      (requestRuleNumber_floatNumber exp2)
  · rw [h]
    exact isRequestRule_congr (mentions_floatRules _ cond) (requestRuleNumber_floatRules exp1)
      (requestRuleNumber_floatRules exp2)

theorem ruleCount_number (h : node.IsNumber) : ruleCount node = 0 := by
  obtain ⟨i, rfl⟩ | ⟨f, rfl⟩ := h <;> rfl

mutual

theorem ruleCount_floatRules (node : Node F) : ruleCount (floatRules node) = ruleCount node := by
  cases node with
  | conditional ternary cond exp1 exp2 =>
    have hsame := isRequestRule_floatRules ternary cond exp1 exp2
    obtain ⟨-, -, h⟩ | ⟨-, h⟩ := floatRules_conditional ternary cond exp1 exp2 <;>
      rw [h] at hsame ⊢ <;>
      simp [ruleCount, hsame, ruleCount_floatRules, ruleCount_floatNumber]
  | _ => simp [floatRules, ruleCount, ruleCount_floatRules, ruleCounts_floatRulesArgs]

theorem ruleCounts_floatRulesArgs (nodes : List (Node F)) :
    ruleCounts (floatRulesArgs nodes) = ruleCounts nodes := by
  cases nodes <;>
    simp [floatRulesArgs, ruleCounts, ruleCount_floatRules, ruleCounts_floatRulesArgs]

end

/-- The call for a mixed rule is the call for the rule read as floats. -/
theorem traceCall_floatNumber (index : Nat) (cond : Node F)
    (h1 : exp1.IsNumber) (h2 : exp2.IsNumber) (hkind : sameKind exp1 exp2 = false) :
    traceCall index cond (floatNumber exp1) (floatNumber exp2) =
      traceCall index cond exp1 exp2 := by
  obtain ⟨i, rfl⟩ | ⟨f, rfl⟩ := h1 <;> obtain ⟨j, rfl⟩ | ⟨g, rfl⟩ := h2
  · simp [sameKind] at hkind
  · rfl
  · rfl
  · simp [sameKind] at hkind

mutual

/-- **Instrumenting does not see mixed literals.** -/
theorem patchAt_floatRules (node : Node F) (n : Nat) :
    patchAt n (floatRules node) = patchAt n node := by
  cases node with
  | conditional ternary cond exp1 exp2 =>
    have hsame := isRequestRule_floatRules ternary cond exp1 exp2
    cases hrule : isRequestRule (.conditional ternary cond exp1 exp2) with
    | true =>
      obtain ⟨-, hn1, hn2⟩ := rule_literals hrule
      obtain ⟨-, hkind, h⟩ | ⟨-, h⟩ := floatRules_conditional ternary cond exp1 exp2 <;>
        rw [h, hrule] at hsame <;>
        rw [h, patchAt_rule n hsame, patchAt_rule n hrule, patchAt_floatRules, ruleCount_floatRules]
      · rw [traceCall_floatNumber _ _ hn1 hn2 hkind, ruleCount_floatNumber, ruleCount_floatNumber]
      · rw [floatRules_number hn1, floatRules_number hn2]
    | false =>
      obtain ⟨hyes, -⟩ | ⟨-, h⟩ := floatRules_conditional ternary cond exp1 exp2
      · rw [hrule] at hyes
        cases hyes
      · rw [h, hrule] at hsame
        simp [h, patchAt_conditional n hsame, patchAt_conditional n hrule, patchAt_floatRules,
          ruleCount_floatRules]
  | _ => simp only [floatRules, patchAt, patchAt_floatRules, patchArgsAt_floatRules,
      ruleCount_floatRules]

theorem patchArgsAt_floatRules (nodes : List (Node F)) (n : Nat) :
    patchArgsAt n (floatRulesArgs nodes) = patchArgsAt n nodes := by
  cases nodes <;> simp [floatRulesArgs, patchArgsAt, patchAt_floatRules, patchArgsAt_floatRules,
    ruleCount_floatRules]

end

mutual

theorem evenRules_floatRules (node : Node F) : evenRules (floatRules node) = true := by
  cases node with
  | conditional ternary cond exp1 exp2 =>
    have hsame := isRequestRule_floatRules ternary cond exp1 exp2
    obtain ⟨hrule, -, h⟩ | ⟨hkind, h⟩ := floatRules_conditional ternary cond exp1 exp2
    · obtain ⟨-, hn1, hn2⟩ := rule_literals hrule
      rw [h, evenRules, evenRules_floatRules]
      obtain ⟨i, rfl⟩ | ⟨f, rfl⟩ := hn1 <;> obtain ⟨j, rfl⟩ | ⟨g, rfl⟩ := hn2 <;>
        simp [floatNumber, evenRules, sameKind]
    · rw [h] at hsame ⊢
      simp only [evenRules, hsame, evenRules_floatRules]
      cases hrule : isRequestRule (.conditional ternary cond exp1 exp2) with
      | false => rfl
      | true =>
        obtain ⟨-, hn1, hn2⟩ := rule_literals hrule
        rw [floatRules_number hn1, floatRules_number hn2, hkind hrule]
        rfl
  | _ => simp [floatRules, evenRules, evenRules_floatRules, evenRulesArgs_floatRules]

theorem evenRulesArgs_floatRules (nodes : List (Node F)) :
    evenRulesArgs (floatRulesArgs nodes) = true := by
  cases nodes <;> simp [floatRulesArgs, evenRulesArgs, evenRules_floatRules,
    evenRulesArgs_floatRules]

end

mutual

/-- Without mixed rules there is nothing to read as a float. -/
theorem floatRules_of_even (node : Node F) (h : evenRules node = true) :
    floatRules node = node := by
  cases node with
  | conditional ternary cond exp1 exp2 =>
    simp only [evenRules, Bool.and_eq_true] at h
    obtain ⟨⟨⟨hc, h1⟩, h2⟩, hkind⟩ := h
    obtain ⟨hrule, hmixed, -⟩ | ⟨-, hform⟩ := floatRules_conditional ternary cond exp1 exp2
    · rw [hrule, hmixed] at hkind
      simp at hkind
    · rw [hform, floatRules_of_even cond hc, floatRules_of_even exp1 h1, floatRules_of_even exp2 h2]
  | _ =>
    simp only [evenRules, Bool.and_eq_true] at h
    simp [floatRules, floatRules_of_even, floatRulesArgs_of_even, h]

theorem floatRulesArgs_of_even (nodes : List (Node F)) (h : evenRulesArgs nodes = true) :
    floatRulesArgs nodes = nodes := by
  cases nodes with
  | nil => rfl
  | cons node rest =>
    simp only [evenRulesArgs, Bool.and_eq_true] at h
    simp [floatRulesArgs, floatRules_of_even, floatRulesArgs_of_even, h]

end

mutual

theorem memberFree_floatRules (node : Node F) : (floatRules node).memberFree = node.memberFree := by
  cases node with
  | conditional ternary cond exp1 exp2 =>
    obtain ⟨-, -, h⟩ | ⟨-, h⟩ := floatRules_conditional ternary cond exp1 exp2 <;>
      simp [h, Node.memberFree, memberFree_floatRules, memberFree_floatNumber]
  | _ => simp [floatRules, Node.memberFree, memberFree_floatRules, memberFreeArgs_floatRules]

theorem memberFreeArgs_floatRules (nodes : List (Node F)) :
    memberFreeArgs (floatRulesArgs nodes) = memberFreeArgs nodes := by
  cases nodes <;>
    simp [floatRulesArgs, memberFreeArgs, memberFree_floatRules, memberFreeArgs_floatRules]

end

end TokenGateway.Expression
