import TokenGateway.Expression.Host

namespace TokenGateway.Expression

open Base

/-!
# Instrumented programs run like the expression as written

What `requestRulePatcher` promises: it "adds trace side effects to existing request multipliers
without changing the stored expression or its numeric result".

* `Traces` — an environment with trace functions next to one in which the interpreter itself
  reports the rules it evaluates with a true condition;
* `eval_patchAt` — under it the instrumented tree and the tree as written run in step;
* `Extends` — an environment that is at most more lenient about the conditions of rules;
* `eval_extends` — under it a successful run keeps its value.
-/

variable {F σ τ : Type}

/-! ### Running in step -/

/-- Related values: equal, and none of the trace functions. -/
def SameValue (v w : Value F) : Prop := v = w ∧ v ≠ .func .trace ∧ v ≠ .func .traceInt

theorem sameValue_data (d : Datum F) : SameValue (.data d) (.data d) := ⟨rfl, nofun, nofun⟩

theorem option_data_same (d : Option (Datum F)) :
    Option.Rel SameValue (d.map .data) (d.map .data) := by
  cases d with
  | none => exact .none
  | some d => exact .some (sameValue_data d)

variable {R : σ → τ → Prop}

theorem data_sim {x : Run σ (Datum F)} {y : Run τ (Datum F)} (h : Run.Sim R Eq x y) :
    Run.Sim R SameValue (x >>= fun d => pure (.data d)) (y >>= fun d => pure (.data d)) := by
  refine Run.Sim.bind h ?_
  rintro d _ rfl
  exact Run.Sim.pure (sameValue_data d)

variable {x x' : Run σ (Value F)} {y y' : Run τ (Value F)} {b : Option Bool}

theorem branch_sim (hx : Run.Sim R SameValue x y) (hx' : Run.Sim R SameValue x' y') :
    Run.Sim R SameValue (branch b x x') (branch b y y') := by
  rcases b with _ | b
  · exact Run.Sim.fail
  · cases b
    · exact hx'
    · exact hx

variable {f : HostFunction} {t : Ty} {m : Datum F}

/-- The arguments of a trace call: the number and the multiplier are handed over as they are. -/
theorem passAll_trace (M : Machine F) (index : Int) (v : Value F)
    (hparams : f.params = [.int, .bool, t]) (hm : (Value.data m).hasType t = true) :
    M.passAll f f.params [.data (.int index), v, .data m] =
      (M.pass f .bool v).map fun w => [.data (.int index), w, .data m] := by
  simp only [hparams, Machine.passAll, Machine.pass_of_hasType hm]
  cases M.pass f .bool v <;> rfl

variable {name : String}

/-- The names of the trace functions are the reserved ones. -/
theorem envEntry_trace (h : envEntry name = some (.func f))
    (hname : isReserved name = false) : f ≠ .trace ∧ f ≠ .traceInt := by
  constructor
  · rintro rfl
    unfold envEntry at h
    split at h <;> simp_all [isReserved, requestRuleTraceFunction]
  · rintro rfl
    unfold envEntry at h
    split at h <;> simp_all [isReserved, requestRuleTraceIntFunction]

variable {H : Handler F σ} {v : Value F}

/-- An identifier that is not reserved is not a trace function. -/
theorem identifier_notTrace (hname : isReserved name = false) (hv : H.identifier name = some v) :
    v ≠ .func .trace ∧ v ≠ .func .traceInt := by
  unfold Handler.identifier at hv
  split at hv
  · cases hv
    exact ⟨nofun, nofun⟩
  obtain ⟨entry, hentry, hval⟩ := Option.map_eq_some_iff.mp hv
  cases entry with
  | var x =>
    cases hval
    exact ⟨nofun, nofun⟩
  | func f =>
    obtain ⟨h1, h2⟩ := envEntry_trace hentry hname
    cases hval
    exact ⟨fun h => h1 (by injection h), fun h => h2 (by injection h)⟩

theorem identifier_congr {W : Handler F τ} (h : H.value = W.value)
    (name : String) : H.identifier name = W.identifier name := by
  unfold Handler.identifier Handler.load
  rw [h]

/-! ### A stricter reading of conditions -/

/-- Whatever `H` does, `W` does too, if the conditions of rules are `ok`. -/
structure Extends (ok : Value F → Prop) (H : Handler F σ) (W : Handler F τ) (R : σ → τ → Prop) :
    Prop where
  value : H.value = W.value
  call : ∀ f args, Run.Refines R Eq (H.call f args) (W.call f args)
  condition : ∀ f v b, ok v → H.condition f v = some b → W.condition f v = some b
  matched : ∀ index s t, R s t → R (H.matched index s) (W.matched index t)

section Refining

variable {W : Handler F τ} {ok : Value F → Prop}

theorem branch_refines {b' : Option Bool}
    (hb : ∀ c, b = some c → b' = some c) (hx : Run.Refines R Eq x y)
    (hx' : Run.Refines R Eq x' y') : Run.Refines R Eq (branch b x x') (branch b' y y') := by
  rcases b with _ | b
  · exact Run.Refines.fail
  rw [hb b rfl]
  cases b
  · exact hx'
  · exact hx

theorem lift_refines {α : Type} (o : Option α) : Run.Refines R Eq (Run.lift o) (Run.lift o) :=
  Run.Refines.lift fun a ha => ⟨a, ha, rfl⟩

theorem apply_refines (M : Machine F) (hE : Extends ok H W R) (v : Value F)
    (args : List (Value F)) : Run.Refines R Eq (H.apply M v args) (W.apply M v args) := by
  cases v with
  | func f =>
    refine Run.Refines.bind (lift_refines _) ?_
    rintro ws _ rfl
    refine Run.Refines.bind (hE.call f ws) ?_
    rintro d _ rfl
    exact Run.Refines.pure rfl
  | data d | env => exact Run.Refines.fail

theorem member_congr (M : Machine F) (h : H.value = W.value) (o p : Value F) :
    H.member M o p = W.member M o p := by
  unfold Handler.member Handler.load
  rw [h]

end Refining

variable [Float64 F]

/-! ### The instrumented tree -/

/-- `H` has trace functions that report to their own state what `W` hears from the interpreter;
    for the rest the two do the same. -/
structure Traces (M : Machine F) (H : Handler F σ) (W : Handler F τ) (R : σ → τ → Prop) : Prop where
  value : H.value = W.value
  call : ∀ f args, f ≠ .trace → f ≠ .traceInt → Run.Sim R Eq (H.call f args) (W.call f args)
  trace : ∀ (index : Nat) (m : F), Run.Sim R Eq
    (H.call .trace [.data (.int index), .data (.bool true), .data (.float m)])
    (fun t => (some (.float m), W.matched index t))
  traceOther : ∀ (index : Nat) (m : F), Run.Sim R Eq
    (H.call .trace [.data (.int index), .data (.bool false), .data (.float m)])
    (pure (.float (Float64.ofInt 1)))
  traceInt : ∀ (index : Nat) (m : Int), Run.Sim R Eq
    (H.call .traceInt [.data (.int index), .data (.bool true), .data (.int m)])
    (fun t => (some (.int m), W.matched index t))
  traceIntOther : ∀ (index : Nat) (m : Int), Run.Sim R Eq
    (H.call .traceInt [.data (.int index), .data (.bool false), .data (.int m)]) (pure (.int 1))
  condition : ∀ f v, W.condition f v = (M.pass f .bool v).bind Value.asBool

section Step

variable {M : Machine F} {W : Handler F τ}

section

variable (hT : Traces M H W R)
include hT

theorem identifier_sim (hname : isReserved name = false) :
    Option.Rel SameValue (H.identifier name) (W.identifier name) := by
  rw [← identifier_congr hT.value]
  cases hv : H.identifier name with
  | none => exact .none
  | some v => exact .some ⟨rfl, identifier_notTrace hname hv⟩

theorem apply_sim {w : Value F} (hvw : SameValue v w) (args : List (Value F)) :
    Run.Sim R SameValue (H.apply M v args) (W.apply M w args) := by
  obtain ⟨rfl, h1, h2⟩ := hvw
  cases v with
  | func f =>
    refine Run.Sim.bind (Q := Eq) (Run.Sim.lift ?_) ?_
    · cases M.passAll f f.params args with
      | none => exact .none
      | some ws => exact .some rfl
    · rintro ws _ rfl
      exact data_sim (hT.call f ws (fun h => h1 (by rw [h])) (fun h => h2 (by rw [h])))
  | data d | env => exact Run.Sim.fail

/-- What a trace call does after its condition was evaluated. -/
theorem applyTrace_sim {one : Datum F} {index : Nat}
    (hparams : f.params = [.int, .bool, t]) (hm : (Value.data m).hasType t = true)
    (htrue : Run.Sim R Eq (H.call f [.data (.int index), .data (.bool true), .data m])
      (fun t => (some m, W.matched index t)))
    (hfalse : Run.Sim R Eq (H.call f [.data (.int index), .data (.bool false), .data m]) (pure one))
    (v : Value F) :
    Run.Sim R SameValue (H.apply M (.func f) [.data (.int index), v, .data m])
      (branch (W.condition f v) (W.report index (pure (.data m))) (pure (.data one))) := by
  rw [hT.condition]
  simp only [Handler.apply, passAll_trace M _ v hparams hm]
  cases hpass : M.pass f .bool v with
  | none => exact Run.Sim.fail
  | some w =>
    obtain ⟨b, rfl⟩ := Machine.pass_bool hpass
    cases b with
    | false => exact data_sim hfalse
    | true => exact data_sim htrue

/-- **One rule.** The call that replaces a rule runs in step with the rule. -/
theorem rule_sim {ternary : Bool} {cond exp1 exp2 : Node F} (k n index : Nat) (cond' : Node F)
    (hrule : isRequestRule (.conditional ternary cond exp1 exp2) = true)
    (hkind : sameKind exp1 exp2 = true)
    (hindex : index = n + ruleCount cond)
    (hcond : ∀ k, Run.Sim R SameValue (eval M H k cond') (eval M W n cond)) :
    Run.Sim R SameValue (eval M H k (traceCall index cond' exp1 exp2))
      (eval M W n (.conditional ternary cond exp1 exp2)) := by
  obtain ⟨-, -, -, hone⟩ := isRequestRule_iff.mp hrule
  obtain ⟨-, h1, h2⟩ := rule_literals hrule
  subst hindex
  obtain ⟨i, rfl⟩ | ⟨f, rfl⟩ := h1 <;> obtain ⟨j, rfl⟩ | ⟨g, rfl⟩ := h2
  · -- two integers: the fallback is the literal 1
    have hj : j = 1 := by
      exact Float64.ofInt_one j (Float64.eq_one _ hone)
    subst hj
    simp only [traceCall, eval, evalArgs, hrule, Run.pure_bind, Run.bind_assoc]
    refine Run.Sim.bind (hcond _) ?_
    rintro v _ ⟨rfl, -, -⟩
    exact applyTrace_sim hT rfl rfl (hT.traceInt _ i) (hT.traceIntOther _ i) v
  · simp [sameKind] at hkind
  · simp [sameKind] at hkind
  · have hg : g = Float64.ofInt 1 := by
      exact Float64.eq_one _ hone
    subst hg
    simp only [traceCall, eval, evalArgs, hrule, Run.pure_bind, Run.bind_assoc]
    refine Run.Sim.bind (hcond _) ?_
    rintro v _ ⟨rfl, -, -⟩
    exact applyTrace_sim hT rfl rfl (hT.trace _ f) (hT.traceOther _ f) v

end

mutual

/-- **The instrumented tree runs in step with the tree as written.** -/
theorem eval_patchAt (hT : Traces M H W R) : ∀ (node : Node F) (k n : Nat),
    evenRules node = true → node.memberFree = true → node.mentions isReserved = false →
      Run.Sim R SameValue (eval M H k (patchAt n node)) (eval M W n node)
  | .nil, _, _, _, _, _ | .bool _, _, _, _, _, _ | .integer _, _, _, _, _, _
  | .float _, _, _, _, _, _ | .string _, _, _, _, _, _ => Run.Sim.pure (sameValue_data _)
  | .identifier name, k, n, _, _, hres => Run.Sim.lift (identifier_sim hT hres)
  | .unary operator node, k, n, heven, hfree, hres => by
    simp only [evenRules] at heven
    simp only [Node.memberFree] at hfree
    simp only [Node.mentions] at hres
    simp only [eval]
    refine Run.Sim.bind (eval_patchAt hT node k n heven hfree hres) ?_
    rintro v _ ⟨rfl, -, -⟩
    exact Run.Sim.lift (option_data_same _)
  | .binary operator left right, k, n, heven, hfree, hres => by
    simp only [evenRules, Bool.and_eq_true] at heven
    simp only [Node.memberFree, Bool.and_eq_true] at hfree
    simp only [Node.mentions, Bool.or_eq_false_iff] at hres
    have hleft := eval_patchAt hT left k n heven.1 hfree.1 hres.1
    have hright := fun k' => eval_patchAt hT right k' (n + ruleCount left) heven.2 hfree.2 hres.2
    simp only [eval]
    refine Run.Sim.bind hleft ?_
    rintro l _ ⟨rfl, hl⟩
    cases operator with
    | and => exact branch_sim (hright _) (Run.Sim.pure (sameValue_data _))
    | or => exact branch_sim (Run.Sim.pure (sameValue_data _)) (hright _)
    | coalesce =>
      dsimp only
      split
      · exact hright _
      · exact Run.Sim.pure ⟨rfl, hl⟩
    | _ =>
      refine Run.Sim.bind (hright _) ?_
      rintro r _ ⟨rfl, -, -⟩
      exact Run.Sim.lift (option_data_same _)
  | .call callee arguments, k, n, heven, hfree, hres => by
    simp only [evenRules, Bool.and_eq_true] at heven
    simp only [Node.memberFree, Bool.and_eq_true] at hfree
    simp only [Node.mentions, Bool.or_eq_false_iff] at hres
    simp only [eval]
    refine Run.Sim.bind (evalArgs_patchArgsAt hT arguments _ _ heven.2 hfree.2 hres.2) ?_
    rintro args _ rfl
    refine Run.Sim.bind (eval_patchAt hT callee _ _ heven.1 hfree.1 hres.1) ?_
    intro v w hvw
    exact apply_sim hT hvw args
  | .conditional ternary cond exp1 exp2, k, n, heven, hfree, hres => by
    simp only [evenRules, Bool.and_eq_true] at heven
    simp only [Node.memberFree, Bool.and_eq_true] at hfree
    simp only [Node.mentions, Bool.or_eq_false_iff] at hres
    obtain ⟨⟨⟨hc, h1⟩, h2⟩, hkind⟩ := heven
    have hcond := fun k' => eval_patchAt hT cond k' n hc hfree.1.1 hres.1.1
    cases hrule : isRequestRule (.conditional ternary cond exp1 exp2) with
    | true =>
      obtain ⟨-, hn1, hn2⟩ := rule_literals hrule
      rw [hrule] at hkind
      rw [patchAt_rule n hrule]
      refine rule_sim hT k n _ _ hrule (by simpa using hkind) ?_ hcond
      simp [ruleCount_number hn1, ruleCount_number hn2]
    | false =>
      have hsame := isRequestRule_patchAt ternary cond exp1 exp2 n (n + ruleCount cond)
        (n + ruleCount cond + ruleCount exp1)
      rw [hrule] at hsame
      rw [patchAt_conditional n hrule]
      simp only [eval, hsame, hrule]
      refine Run.Sim.bind (hcond _) ?_
      rintro v _ ⟨rfl, -, -⟩
      exact branch_sim (eval_patchAt hT exp1 _ _ h1 hfree.1.2 hres.1.2)
        (eval_patchAt hT exp2 _ _ h2 hfree.2 hres.2)
  | .member _ _, _, _, _, hfree, _ => by simp [Node.memberFree] at hfree

theorem evalArgs_patchArgsAt (hT : Traces M H W R) : ∀ (nodes : List (Node F)) (k n : Nat),
    evenRulesArgs nodes = true → memberFreeArgs nodes = true →
      mentionsAny isReserved nodes = false →
      Run.Sim R Eq (evalArgs M H k (patchArgsAt n nodes)) (evalArgs M W n nodes)
  | [], _, _, _, _, _ => Run.Sim.pure rfl
  | node :: rest, k, n, heven, hfree, hres => by
    simp only [evenRulesArgs, Bool.and_eq_true] at heven
    simp only [memberFreeArgs, Bool.and_eq_true] at hfree
    simp only [mentionsAny, Bool.or_eq_false_iff] at hres
    simp only [evalArgs]
    refine Run.Sim.bind (eval_patchAt hT node _ _ heven.1 hfree.1 hres.1) ?_
    rintro v _ ⟨rfl, -, -⟩
    refine Run.Sim.bind (evalArgs_patchArgsAt hT rest _ _ heven.2 hfree.2 hres.2) ?_
    rintro vs _ rfl
    exact Run.Sim.pure rfl

end

end Step

/-! ### The stricter reading of a whole tree -/

section Extend

variable {W : Handler F τ} {ok : Value F → Prop}

mutual

/-- **A run that succeeds under `H` succeeds under `W` with the same value.** -/
theorem eval_extends (M : Machine F) (hE : Extends ok H W R) : ∀ (node : Node F) (n : Nat),
    (∀ cond ∈ ruleConditions node, ∀ k, (eval M H k cond).Returns ok) →
      Run.Refines R Eq (eval M H n node) (eval M W n node)
  | .nil, _, _ | .bool _, _, _ | .integer _, _, _ | .float _, _, _ | .string _, _, _ =>
    Run.Refines.pure rfl
  | .identifier name, n, _ => by
    simp only [eval, identifier_congr hE.value]
    exact lift_refines _
  | .unary operator node, n, hok => by
    simp only [eval]
    refine Run.Refines.bind (eval_extends M hE node n hok) ?_
    rintro v _ rfl
    exact lift_refines _
  | .binary operator left right, n, hok => by
    rw [ruleConditions, List.forall_mem_append] at hok
    have hright := eval_extends M hE right (n + ruleCount left) hok.2
    simp only [eval]
    refine Run.Refines.bind (eval_extends M hE left n hok.1) ?_
    rintro l _ rfl
    cases operator with
    | and => exact branch_refines (fun _ h => h) hright (Run.Refines.pure rfl)
    | or => exact branch_refines (fun _ h => h) (Run.Refines.pure rfl) hright
    | coalesce =>
      dsimp only
      split
      · exact hright
      · exact Run.Refines.pure rfl
    | _ =>
      refine Run.Refines.bind hright ?_
      rintro r _ rfl
      exact lift_refines _
  | .call callee arguments, n, hok => by
    rw [ruleConditions, List.forall_mem_append] at hok
    simp only [eval]
    refine Run.Refines.bind (evalArgs_extends M hE arguments _ hok.2) ?_
    rintro args _ rfl
    refine Run.Refines.bind (eval_extends M hE callee _ hok.1) ?_
    rintro v _ rfl
    exact apply_refines M hE v args
  | .conditional ternary cond exp1 exp2, n, hok => by
    rw [ruleConditions, List.forall_mem_append, List.forall_mem_append,
      List.forall_mem_append] at hok
    obtain ⟨hrule, hc, h1, h2⟩ := hok
    have h1 := eval_extends M hE exp1 (n + ruleCount cond) h1
    have h2 := eval_extends M hE exp2 (n + ruleCount cond + ruleCount exp1) h2
    have hc := eval_extends M hE cond n hc
    simp only [eval]
    split_ifs with hif
    · rw [if_pos hif, List.forall_mem_singleton] at hrule
      refine Run.Refines.bind (hc.and (hrule n)) ?_
      rintro v _ ⟨rfl, hv⟩
      exact branch_refines (hE.condition _ v · hv) (fun s t hst => h1 _ _ (hE.matched _ s t hst)) h2
    · refine Run.Refines.bind hc ?_
      rintro v _ rfl
      exact branch_refines (fun _ h => h) h1 h2
  | .member node property, n, hok => by
    rw [ruleConditions, List.forall_mem_append] at hok
    simp only [eval]
    refine Run.Refines.bind (eval_extends M hE node n hok.1) ?_
    rintro o _ rfl
    refine Run.Refines.bind (eval_extends M hE property _ hok.2) ?_
    rintro p _ rfl
    rw [member_congr M hE.value]
    exact lift_refines _

theorem evalArgs_extends (M : Machine F) (hE : Extends ok H W R) :
    ∀ (nodes : List (Node F)) (n : Nat),
    (∀ cond ∈ ruleConditionsArgs nodes, ∀ k, (eval M H k cond).Returns ok) →
      Run.Refines R Eq (evalArgs M H n nodes) (evalArgs M W n nodes)
  | [], _, _ => Run.Refines.pure rfl
  | node :: rest, n, hok => by
    rw [ruleConditionsArgs, List.forall_mem_append] at hok
    simp only [evalArgs]
    refine Run.Refines.bind (eval_extends M hE node n hok.1) ?_
    rintro v _ rfl
    refine Run.Refines.bind (evalArgs_extends M hE rest _ hok.2) ?_
    rintro vs _ rfl
    exact Run.Refines.pure rfl

end

theorem runFloat_extends (M : Machine F) (hE : Extends ok H W R) (prog : Node F)
    (hok : ∀ cond ∈ ruleConditions prog, ∀ k, (eval M H k cond).Returns ok) :
    Run.Refines R Eq (runFloat M H prog) (runFloat M W prog) := by
  refine Run.Refines.bind (eval_extends M hE prog 0 hok) ?_
  rintro v _ rfl
  exact lift_refines _

end Extend

end TokenGateway.Expression
