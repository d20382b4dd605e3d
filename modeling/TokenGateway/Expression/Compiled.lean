import TokenGateway.Expression.Rules

namespace TokenGateway.Expression

/-!
# Compiling an instrumented tree

In a tree without mixed rules the instrumentation is invisible to the compiler:

* `typeOf_patchAt` — the instrumented tree has the same type;
* `convert_patchAt` — converting literals in argument position commutes with instrumenting;
* `compile_patchAt` — so both trees compile, and the compiled instrumented tree is the instrumented
  compiled tree.
-/

variable {F : Type} [Float64 F] (M : Machine F)

/-! ### Types -/

theorem identifierType_trace : identifierType requestRuleTraceFunction = some (.func .trace) := rfl

theorem identifierType_traceInt :
    identifierType requestRuleTraceIntFunction = some (.func .traceInt) := rfl

/-- A trace call has the type of its rule. -/
theorem typeOf_traceCall (index : Nat) (ternary : Bool) {cond cond' exp1 exp2 : Node F}
    (hcond : typeOf M cond' = typeOf M cond)
    (h1 : exp1.IsNumber) (h2 : exp2.IsNumber) (hkind : sameKind exp1 exp2 = true) :
    typeOf M (traceCall index cond' exp1 exp2) =
      typeOf M (.conditional ternary cond exp1 exp2) := by
  obtain ⟨i, rfl⟩ | ⟨f, rfl⟩ := h1 <;> obtain ⟨j, rfl⟩ | ⟨g, rfl⟩ := h2
  case inl.inr | inr.inl => simp [sameKind] at hkind
  all_goals
    simp only [traceCall, typeOf, typesOf, hcond]
    cases typeOf M cond with
    | none => rfl
    | some t => cases t <;> rfl

/-- Instrumenting a property does not change how it is looked up. -/
theorem envMemberType_patchAt (property : Node F) (n : Nat) (t : Ty) :
    envMemberType (patchAt n property) t = envMemberType property t := by
  cases property with
  | conditional ternary cond exp1 exp2 =>
    obtain ⟨_, _, _, h⟩ | ⟨_, _, h⟩ := patchAt_conditional_cases ternary cond exp1 exp2 n <;>
      rw [h] <;> rfl
  | _ => rfl

mutual

/-- **The instrumented tree has the type of the tree**, unless a rule is mixed. -/
theorem typeOf_patchAt (node : Node F) (n : Nat) (h : evenRules node = true) :
    typeOf M (patchAt n node) = typeOf M node := by
  cases node with
  | conditional ternary cond exp1 exp2 =>
    simp only [evenRules, Bool.and_eq_true] at h
    obtain ⟨⟨⟨hc, h1⟩, h2⟩, hkind⟩ := h
    cases hrule : isRequestRule (.conditional ternary cond exp1 exp2) with
    | true =>
      obtain ⟨-, hn1, hn2⟩ := rule_literals hrule
      rw [hrule] at hkind
      rw [patchAt_rule n hrule]
      exact typeOf_traceCall M _ ternary (typeOf_patchAt cond n hc) hn1 hn2 (by simpa using hkind)
    | false => simp [patchAt_conditional n hrule, typeOf, typeOf_patchAt, hc, h1, h2]
  | _ =>
    simp only [evenRules, Bool.and_eq_true] at h
    simp [patchAt, typeOf, typeOf_patchAt, typesOf_patchArgsAt, envMemberType_patchAt, h]

theorem typesOf_patchArgsAt (nodes : List (Node F)) (n : Nat)
    (h : evenRulesArgs nodes = true) : typesOf M (patchArgsAt n nodes) = typesOf M nodes := by
  cases nodes with
  | nil => rfl
  | cons node rest =>
    simp only [evenRulesArgs, Bool.and_eq_true] at h
    simp only [patchArgsAt, typesOf, typeOf_patchAt, typesOf_patchArgsAt, h]

end

/-! ### Literals in argument position -/

theorem mentions_floatLiterals (p : String → Bool) (node : Node F) :
    (floatLiterals node).mentions p = node.mentions p := by
  fun_induction floatLiterals node <;> simp_all only [Node.mentions]

variable (node : Node F)

theorem ruleCount_floatLiterals : ruleCount (floatLiterals node) = ruleCount node := by
  fun_induction floatLiterals node <;> simp_all only [ruleCount]

theorem evenRules_floatLiterals : evenRules (floatLiterals node) = evenRules node := by
  fun_induction floatLiterals node <;> simp_all only [evenRules]

theorem memberFree_floatLiterals : (floatLiterals node).memberFree = node.memberFree := by
  fun_induction floatLiterals node <;> simp_all only [Node.memberFree]

/-- A rule is not reached by the conversion, nor is the call that replaces it. -/
theorem floatLiterals_patchAt (n : Nat) :
    floatLiterals (patchAt n node) = patchAt n (floatLiterals node) := by
  fun_induction floatLiterals node generalizing n with
  | case1 => rfl
  | case2 _ _ ih => simp [patchAt, floatLiterals, ih]
  | case3 left _ ih1 ih2 =>
    simp [patchAt, floatLiterals, ih1, ih2, ruleCount_floatLiterals]
  | case4 left _ ih1 ih2 | case5 left _ ih1 ih2 =>
    simp only [patchAt, floatLiterals, ih1, ih2, ruleCount_floatLiterals]
  | case6 node hint hun hadd hsub hmul =>
    cases node with
    | integer i => exact absurd rfl (hint i)
    | unary op node => exact absurd rfl (hun op node)
    | binary op left right =>
      cases op with
      | add => exact absurd rfl (hadd left right)
      | sub => exact absurd rfl (hsub left right)
      | mul => exact absurd rfl (hmul left right)
      | _ => rfl
    | conditional ternary cond exp1 exp2 =>
      obtain ⟨_, _, _, h⟩ | ⟨_, _, h⟩ := patchAt_conditional_cases ternary cond exp1 exp2 n <;>
        rw [h] <;> rfl
    | _ => rfl

theorem requestRuleNumber_convert :
    requestRuleNumber (convert M node) = requestRuleNumber node := by
  cases node <;> rfl

/-- The conversion of one argument. -/
def convertArg (params : List Ty) (node : Node F) : Node F :=
  if params.head? = some .float ∧ typeOf M node = some .int then floatLiterals (convert M node)
  else convert M node

/-- Arguments are converted one by one. -/
theorem convertArgs_cons (params : List Ty) (node : Node F)
    (rest : List (Node F)) : convertArgs M params (node :: rest) =
      convertArg M params node :: convertArgs M params.tail rest := by
  rfl

/-- What the conversion of a tree and the conversion of literals both keep, the conversion of an
    argument keeps. -/
theorem convertArg_of {α : Type} (g : Node F → α) (params : List Ty) {node : Node F}
    (hlit : ∀ x : Node F, g (floatLiterals x) = g x) (hconv : g (convert M node) = g node) :
    g (convertArg M params node) = g node := by
  unfold convertArg
  split
  · rw [hlit, hconv]
  · exact hconv

mutual

/-- Conversion adds no names. -/
theorem mentions_convert (p : String → Bool) (node : Node F) :
    (convert M node).mentions p = node.mentions p := by
  cases node <;>
    simp [convert, Node.mentions, mentions_convert, mentionsAny_convertArgs]

theorem mentionsAny_convertArgs (p : String → Bool) (nodes : List (Node F))
    (params : List Ty) : mentionsAny p (convertArgs M params nodes) = mentionsAny p nodes := by
  cases nodes with
  | nil => rfl
  | cons node rest =>
    rw [convertArgs_cons]
    simp [mentionsAny, mentionsAny_convertArgs,
      convertArg_of M (Node.mentions p) params (mentions_floatLiterals p) (mentions_convert p node)]

end

/-- Converting the parts of a conditional does not make or unmake a rule. -/
theorem isRequestRule_convert (ternary : Bool) (cond exp1 exp2 : Node F) :
    isRequestRule (.conditional ternary (convert M cond) (convert M exp1) (convert M exp2)) =
      isRequestRule (.conditional ternary cond exp1 exp2) :=
  isRequestRule_congr (mentions_convert M _ cond) (requestRuleNumber_convert M exp1)
    (requestRuleNumber_convert M exp2)

mutual

/-- Conversion keeps the number of rules. -/
theorem ruleCount_convert (node : Node F) : ruleCount (convert M node) = ruleCount node := by
  cases node <;> simp only [convert, ruleCount, isRequestRule_convert, ruleCount_convert,
    ruleCounts_convertArgs]

theorem ruleCounts_convertArgs (nodes : List (Node F)) (params : List Ty) :
    ruleCounts (convertArgs M params nodes) = ruleCounts nodes := by
  cases nodes with
  | nil => rfl
  | cons node rest =>
    rw [convertArgs_cons]
    simp [ruleCounts, ruleCounts_convertArgs,
      convertArg_of M ruleCount params ruleCount_floatLiterals (ruleCount_convert node)]

end

mutual

/-- Conversion adds no member access. -/
theorem memberFree_convert (node : Node F) : (convert M node).memberFree = node.memberFree := by
  cases node <;>
    simp [convert, Node.memberFree, memberFree_convert, memberFreeArgs_convertArgs]

theorem memberFreeArgs_convertArgs (nodes : List (Node F)) (params : List Ty) :
    memberFreeArgs (convertArgs M params nodes) = memberFreeArgs nodes := by
  cases nodes with
  | nil => rfl
  | cons node rest =>
    rw [convertArgs_cons]
    simp [memberFreeArgs, memberFreeArgs_convertArgs,
      convertArg_of M Node.memberFree params memberFree_floatLiterals (memberFree_convert node)]

end

/-- Conversion keeps the kinds of two numbers. -/
theorem sameKind_convert (exp1 exp2 : Node F) :
    sameKind (convert M exp1) (convert M exp2) = sameKind exp1 exp2 := by
  cases exp1 <;> cases exp2 <;> rfl

mutual

/-- Conversion keeps rules even. -/
theorem evenRules_convert (node : Node F) : evenRules (convert M node) = evenRules node := by
  cases node <;> simp only [convert, evenRules, isRequestRule_convert, sameKind_convert,
    evenRules_convert, evenRulesArgs_convertArgs]

theorem evenRulesArgs_convertArgs (nodes : List (Node F)) (params : List Ty) :
    evenRulesArgs (convertArgs M params nodes) = evenRulesArgs nodes := by
  cases nodes with
  | nil => rfl
  | cons node rest =>
    rw [convertArgs_cons]
    simp [evenRulesArgs, evenRulesArgs_convertArgs,
      convertArg_of M evenRules params evenRules_floatLiterals (evenRules_convert node)]

end

/-- The call that replaces a rule has no argument to convert but its condition. -/
theorem convert_traceCall (index : Nat) (cond : Node F) {exp1 exp2 : Node F}
    (h1 : exp1.IsNumber) (h2 : exp2.IsNumber) :
    convert M (traceCall index cond exp1 exp2) =
      traceCall index (convert M cond) (convert M exp1) (convert M exp2) := by
  obtain ⟨i, rfl⟩ | ⟨f, rfl⟩ := h1 <;> obtain ⟨j, rfl⟩ | ⟨g, rfl⟩ := h2 <;>
    simp [traceCall, multiplierNode, requestRuleNumber, convert, convertArgs, calleeParams, typeOf,
      identifierType_trace, identifierType_traceInt, HostFunction.params]

mutual

/-- **Converting commutes with instrumenting**, unless a rule is mixed. -/
theorem convert_patchAt (node : Node F) (n : Nat) (h : evenRules node = true) :
    convert M (patchAt n node) = patchAt n (convert M node) := by
  cases node with
  | conditional ternary cond exp1 exp2 =>
    simp only [evenRules, Bool.and_eq_true] at h
    obtain ⟨⟨⟨hc, h1⟩, h2⟩, -⟩ := h
    have hsame := isRequestRule_convert M ternary cond exp1 exp2
    cases hrule : isRequestRule (.conditional ternary cond exp1 exp2) with
    | true =>
      obtain ⟨-, hn1, hn2⟩ := rule_literals hrule
      rw [hrule] at hsame
      rw [patchAt_rule n hrule, convert_traceCall M _ _ hn1 hn2, convert, patchAt_rule n hsame,
        convert_patchAt cond n hc, ruleCount_convert, ruleCount_convert, ruleCount_convert]
    | false =>
      rw [hrule] at hsame
      rw [patchAt_conditional n hrule, convert, convert, patchAt_conditional n hsame,
        convert_patchAt cond _ hc, convert_patchAt exp1 _ h1, convert_patchAt exp2 _ h2,
        ruleCount_convert, ruleCount_convert]
  | _ =>
    simp only [evenRules, Bool.and_eq_true] at h
    simp only [patchAt, convert, convert_patchAt, calleeParams, typeOf_patchAt,
      convertArgs_patchArgsAt, ruleCount_convert, h]

theorem convertArgs_patchArgsAt (nodes : List (Node F)) (params : List Ty) (n : Nat)
    (h : evenRulesArgs nodes = true) :
    convertArgs M params (patchArgsAt n nodes) = patchArgsAt n (convertArgs M params nodes) := by
  cases nodes with
  | nil => rfl
  | cons node rest =>
    simp only [evenRulesArgs, Bool.and_eq_true] at h
    have hcount : ruleCount (convertArg M params node) = ruleCount node :=
      convertArg_of M ruleCount params ruleCount_floatLiterals (ruleCount_convert M node)
    have hhead : convertArg M params (patchAt n node) = patchAt n (convertArg M params node) := by
      unfold convertArg
      rw [typeOf_patchAt M node n h.1, convert_patchAt node n h.1]
      split
      · exact floatLiterals_patchAt _ n
      · rfl
    rw [patchArgsAt, convertArgs_cons, convertArgs_cons, patchArgsAt, hhead, hcount,
      convertArgs_patchArgsAt rest _ _ h.2]

end

variable {M} in
/-- What compiles is converted. -/
theorem compile_eq_some {node prog : Node F} (h : compile M node = some prog) :
    prog = convert M node := by
  unfold compile at h
  split_ifs at h
  exact (Option.some.inj h).symm

/-- **Compiling commutes with instrumenting**, unless a rule is mixed. -/
theorem compile_patchAt (n : Nat) (h : evenRules node = true) :
    compile M (patchAt n node) = (compile M node).map (patchAt n) := by
  unfold compile
  rw [typeOf_patchAt M node n h, convert_patchAt M node n h]
  split <;> rfl

end TokenGateway.Expression
