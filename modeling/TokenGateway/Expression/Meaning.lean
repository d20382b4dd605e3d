import TokenGateway.Expression.Factors
import TokenGateway.Expression.Whole

namespace TokenGateway.Expression

open Base

/-!
# What an instrumented program computes and records

`requestRulePatcher` "adds trace side effects to existing request multipliers without changing the
stored expression or its numeric result".  It changes two readings: an integer literal that a rule
pairs with a float literal counts as a float, and the condition of a rule is read as a `bool`
argument is.

* `instrument` — `expr.Compile` with the patcher;
* `asWritten`, `runWritten` — the run of the expression as written, with the numbers of the rules
  evaluated with a true condition;
* `instrumented_meaning` — the instrumented program compiles iff the expression so read does, gives
  its result, and marks exactly the rules evaluated with a true condition;
* `instrumentation_keeps_meaning` — where mixed rules are factors and no condition is nil, that is
  the expression itself;
* `mixed_rule_rejected` — a mixed rule under `%` compiles only without the instrumentation.
-/

variable {F : Type}

/-! ### Marked rules -/

variable {rules : List (RequestRuleTrace F)}

/-- The rules with those of the given numbers marked. -/
def flagged (rules : List (RequestRuleTrace F)) (fired : List Nat) : List (RequestRuleTrace F) :=
  rules.mapIdx fun i rule => { rule with matched := rule.matched || decide (i ∈ fired) }

theorem flagged_modify (rules : List (RequestRuleTrace F)) (fired : List Nat) (index : Nat) :
    (flagged rules fired).modify index (fun rule => { rule with matched := true }) =
      flagged rules (index :: fired) := by
  apply List.ext_getElem
  · simp [flagged]
  intro i h1 h2
  by_cases hi : index = i
  · subst hi
    simp [flagged]
  · have hi' : i ≠ index := fun h => hi h.symm
    simp [flagged, hi, hi']

/-- The trace of the instrumented run is the one of the run as written, with the rules marked. -/
def Recorded (rules : List (RequestRuleTrace F)) (s : TraceResult F)
    (t : TraceResult F × List Nat) : Prop :=
  s = { t.1 with requestRules := flagged rules t.2 }

theorem markMatched_recorded {s : TraceResult F} {t : TraceResult F × List Nat}
    (h : Recorded rules s t) (index : Nat) :
    Recorded rules (markMatched index s) (t.1, index :: t.2) := by
  unfold Recorded at h ⊢
  subst h
  simp [markMatched, flagged_modify]

variable [Float64 F]

/-! ### The run as written -/

variable (M : Machine F)

/-- `expr.Compile(…, expr.Patch(patcher), …)`: the program and the rules it reports to, unless the
    expression uses a reserved name. -/
def instrument (tree : Node F) : Option (Node F × List (RequestRuleTrace F)) :=
  if tree.mentions isReserved then none
  else (compile M (patch tree []).1).map fun prog => (prog, (patch tree []).2)

variable (P : Platform F) (params : TokenParams F) (request : RequestInput F)

/-- The environment of a run as written.  Next to the trace it collects the numbers of the rules
    that are evaluated with a true condition. -/
def asWritten
    (imageCount : Int) : Handler F (TraceResult F × List Nat) where
  value := variableValue params imageCount
  call f args := fun s =>
    let out := hostCall P (normalizeHeaders P request.headers) request f args s.1
    (out.1, out.2, s.2)
  condition f v := (M.pass f .bool v).bind Value.asBool
  matched index s := (s.1, index :: s.2)

/-- The result of a run as written, and the numbers of the matched rules. -/
def runWritten (prog : Node F) (params : TokenParams F)
    (request : RequestInput F) : Except RunError F × List Nat :=
  match imageCountFor (usesImageCount prog) request with
  | none => (.error .imageCount, [])
  | some imageCount =>
    let out := runFloat M (asWritten M P params request imageCount) prog
      (initialTrace (usesImageCount prog) imageCount [], [])
    match out.1 with
    | none => (.error .exprRun, out.2.2)
    | some f => (.ok f, out.2.2)

/-! ### The two traces -/

/-- The functions other than the trace functions do not look at the rules. -/
theorem hostCall_rules (headers : List (String × String))
    (request : RequestInput F) (f : HostFunction) (args : List (Value F)) (h1 : f ≠ .trace)
    (h2 : f ≠ .traceInt) (t : TraceResult F) (rules : List (RequestRuleTrace F)) :
    hostCall P headers request f args { t with requestRules := rules } =
      ((hostCall P headers request f args t).1,
        { (hostCall P headers request f args t).2 with requestRules := rules }) := by
  unfold hostCall
  cases heffect : hostEffect P headers request f args with
  | none => rfl
  | some effect =>
    have hwrite : effect.write { t with requestRules := rules } =
      { effect.write t with requestRules := rules } := by
      obtain ⟨-, _, _, -, rfl⟩ | ⟨-, _, -, rfl⟩ | ⟨htrace, -⟩ | ⟨-, -, hid⟩ :=
          hostEffect_cases heffect
      · rfl
      · rfl
      · rcases htrace with rfl | rfl
        · exact absurd rfl h1
        · exact absurd rfl h2
      · rw [hid]
        rfl
    simp [hwrite]

theorem environment_traces (imageCount : Int) (rules : List (RequestRuleTrace F)) :
    Traces M (environment P params request imageCount) (asWritten M P params request imageCount)
      (Recorded rules) where
  value := rfl
  call f args h1 h2 := by
    intro s t hst
    subst hst
    have hcall : (environment P params request imageCount).call f args
        { t.1 with requestRules := flagged rules t.2 } = _ :=
      hostCall_rules P _ request f args h1 h2 t.1 (flagged rules t.2)
    rw [hcall]
    refine ⟨?_, rfl⟩
    show Option.Rel Eq (hostCall P _ request f args t.1).1 (hostCall P _ request f args t.1).1
    cases (hostCall P (normalizeHeaders P request.headers) request f args t.1).1 with
    | none => exact .none
    | some d => exact .some rfl
  trace index m := fun s t hst => ⟨.some rfl, markMatched_recorded hst index⟩
  traceOther index m := fun s t hst => ⟨.some rfl, hst⟩
  traceInt index m := fun s t hst => ⟨.some rfl, markMatched_recorded hst index⟩
  traceIntOther index m := fun s t hst => ⟨.some rfl, hst⟩
  condition f v := rfl

/-- A strict run keeps its own rules and sees no matches. -/
def Unmarked (s : TraceResult F) (t : TraceResult F × List Nat) : Prop := s = t.1

theorem environment_extends (imageCount : Int) :
    Extends (fun _ => True) (environment P params request imageCount)
      (asWritten M P params request imageCount) Unmarked where
  value := rfl
  call f args := by
    rintro s t rfl d s' hrun
    have hcall : hostCall P (normalizeHeaders P request.headers) request f args t.1 =
      (some d, s') :=
      hrun
    refine ⟨d, (s', t.2), ?_, rfl, rfl⟩
    show ((hostCall P _ request f args t.1).1, (hostCall P _ request f args t.1).2, t.2) = _
    rw [hcall]
  condition f v b _ h := by
    have hv : v = .data (.bool b) := by
      cases v with
      | data d => cases d <;> simp_all [environment, Value.asBool]
      | _ => simp [environment, Value.asBool] at h
    subst hv
    simp [asWritten, Machine.pass_of_hasType (M := M) (v := .data (.bool b)) (t := .bool) rfl,
      Value.asBool]
  matched _ _ _ h := h

/-- A run as written is strict where no condition of a rule is nil. -/
theorem asWritten_extends (hM : M.Arithmetic) (imageCount : Int) :
    Extends (fun v => v.isNil = false) (asWritten M P params request imageCount)
      (environment P params request imageCount) fun t s => s = t.1 where
  value := rfl
  call f args := by
    rintro t _ rfl d t' hrun
    obtain ⟨hd, hstate⟩ := Prod.mk.inj hrun
    refine ⟨d, t'.1, Prod.ext hd ?_, rfl, rfl⟩
    rw [← hstate]
    rfl
  condition f v b hv h := (hM.condition f v hv).symm.trans h
  matched _ _ _ h := h

/-- The functions of type `float64` return floats. -/
theorem asWritten_floatCalls (imageCount : Int) :
    FloatCalls (asWritten M P params request imageCount) := by
  intro f args hf s
  refine ⟨trivial, fun d hd => ?_⟩
  simp only [asWritten, hostCall] at hd
  cases heffect : hostEffect P (normalizeHeaders P request.headers) request f args with
  | none =>
    rw [heffect] at hd
    cases hd
  | some effect =>
    rw [heffect] at hd
    cases hd
    unfold hostEffect at heffect
    split at heffect
    case h_3 index isMatched multiplier =>
      cases heffect
      cases isMatched <;> exact ⟨_, rfl⟩
    case h_19 => cases heffect
    all_goals cases hf <;> cases heffect <;> exact ⟨_, rfl⟩

/-! ### The cast and the image count -/

theorem runFloat_sim {σ τ : Type} {R : σ → τ → Prop} {M : Machine F} {H : Handler F σ}
    {W : Handler F τ} (hT : Traces M H W R) {node : Node F} (heven : evenRules node = true)
    (hfree : node.memberFree = true) (hres : node.mentions isReserved = false) :
    Run.Sim R Eq (runFloat M H (patchAt 0 node)) (runFloat M W node) := by
  refine Run.Sim.bind (eval_patchAt hT node 0 0 heven hfree hres) ?_
  rintro v _ ⟨rfl, -, -⟩
  refine Run.Sim.lift ?_
  cases v.asFloat with
  | none => exact .none
  | some f => exact .some rfl

theorem recorded_initial (usesCount : Bool) (imageCount : Int)
    (rules : List (RequestRuleTrace F)) : Recorded rules (initialTrace usesCount imageCount rules)
      (initialTrace usesCount imageCount [], []) := by
  have hflag : flagged rules [] = rules := by
    apply List.ext_getElem
    · simp [flagged]
    · simp [flagged]
  simp [Recorded, initialTrace, hflag]

theorem visit_unmatched (node : Node F) (h : ∀ rule ∈ rules, rule.matched = false) :
    ∀ rule ∈ (visit node rules).2, rule.matched = false := by
  unfold visit
  split
  · split
    · split
      · split
        · exact List.forall_mem_append.mpr ⟨h, List.forall_mem_singleton.mpr rfl⟩
        · exact h
      · exact h
    · exact h
  · exact h

mutual

theorem patch_unmatched : ∀ (node : Node F) {rules : List (RequestRuleTrace F)},
    (∀ rule ∈ rules, rule.matched = false) → ∀ rule ∈ (patch node rules).2, rule.matched = false
  | .nil, _, h | .bool _, _, h | .integer _, _, h | .float _, _, h | .string _, _, h
  | .identifier _, _, h => h
  | .unary _ node, _, h => patch_unmatched node h
  | .binary _ left right, _, h => patch_unmatched right (patch_unmatched left h)
  | .call callee arguments, _, h => patchArgs_unmatched arguments (patch_unmatched callee h)
  | .conditional _ cond exp1 exp2, _, h =>
    visit_unmatched _ (patch_unmatched exp2 (patch_unmatched exp1 (patch_unmatched cond h)))
  | .member node property, _, h => patch_unmatched property (patch_unmatched node h)

theorem patchArgs_unmatched : ∀ (nodes : List (Node F)) {rules : List (RequestRuleTrace F)},
    (∀ rule ∈ rules, rule.matched = false) → ∀ rule ∈ (patchArgs nodes rules).2,
      rule.matched = false
  | [], _, h => h
  | node :: rest, _, h => patchArgs_unmatched rest (patch_unmatched node h)

end

/-! ### The result -/

/-- The expression as it is read: its instrumented program is the instrumented form of its program
    without instrumentation. -/
theorem instrument_eq {tree : Node F} (hres : tree.mentions isReserved = false) :
    instrument M tree = (compile M (floatRules tree)).map fun written =>
      (patchAt 0 written, (patch tree []).2) := by
  unfold instrument
  rw [hres, (patch_spec tree []).1, List.length_nil, ← patchAt_floatRules,
    compile_patchAt M _ 0 (evenRules_floatRules tree), Option.map_map]
  rfl

theorem usesImageCount_patchAt (node : Node F) (n : Nat) :
    usesImageCount (patchAt n node) = usesImageCount node :=
  mentions_patchAt ⟨by decide, by decide⟩ node n

/-- The instrumented program runs as written, and marks the rules that fired. -/
theorem runFloat_patchAt {written : Node F}
    (rules : List (RequestRuleTrace F)) (heven : evenRules written = true)
    (hfree : written.memberFree = true) (hres : written.mentions isReserved = false)
    (imageCount : Int) :
    runFloat M (environment P params request imageCount) (patchAt 0 written)
        (initialTrace (usesImageCount written) imageCount rules) =
      let ref := runFloat M (asWritten M P params request imageCount) written
        (initialTrace (usesImageCount written) imageCount [], [])
      (ref.1, { ref.2.1 with requestRules := flagged rules ref.2.2 }) := by
  obtain ⟨hout, hrules⟩ := runFloat_sim (environment_traces M P params request imageCount rules)
    heven hfree hres _ _ (recorded_initial (usesImageCount written) imageCount rules)
  exact Prod.ext (Run.rel_eq hout) hrules

/-- The run of an instrumented program next to the run as written. -/
theorem runProgram_patchAt {written : Node F}
    (rules : List (RequestRuleTrace F)) (heven : evenRules written = true)
    (hfree : written.memberFree = true) (hres : written.mentions isReserved = false)
    (params : TokenParams F) (request : RequestInput F) :
    (runProgram M P (patchAt 0 written) rules params request).1 =
      (runWritten M P written params request).1 ∧
      (runProgram M P (patchAt 0 written) rules params request).2.requestRules =
        flagged rules (runWritten M P written params request).2 := by
  unfold runProgram runWritten
  rw [usesImageCount_patchAt]
  cases imageCountFor (usesImageCount written) request with
  | none =>
    refine ⟨rfl, ?_⟩
    exact congrArg TraceResult.requestRules (recorded_initial false 1 rules)
  | some imageCount =>
    dsimp only
    rw [runFloat_patchAt M P params request rules heven hfree hres]
    generalize runFloat M (asWritten M P params request imageCount) _ _ = ref
    obtain ⟨_ | f, trace, fired⟩ := ref <;> exact ⟨rfl, rfl⟩

/-- A run without instrumentation that succeeds gives the result of the run as written. -/
theorem runProgram_written {written : Node F} (f : F)
    (h : (runProgram M P written [] params request).1 = .ok f) :
    (runWritten M P written params request).1 = .ok f := by
  unfold runProgram at h
  unfold runWritten
  cases hcount : imageCountFor (usesImageCount written) request with
  | none =>
    rw [hcount] at h
    cases h
  | some imageCount =>
    rw [hcount] at h
    dsimp only at h ⊢
    have href := runFloat_extends M (environment_extends M P params request imageCount) written
      (fun _ _ _ => Run.returns_any _) (initialTrace (usesImageCount written) imageCount [])
      (initialTrace (usesImageCount written) imageCount [], []) rfl
    generalize runFloat M (environment P params request imageCount) written
      (initialTrace (usesImageCount written) imageCount []) = run at h href
    obtain ⟨out, trace⟩ := run
    cases out with
    | none => cases h
    | some g =>
      cases h
      obtain ⟨_, t', hrun, rfl, -⟩ := href f trace rfl
      rw [hrun]

/-- **What an instrumented program computes and records**, for every expression of literals,
    identifiers, operators, calls and conditionals that uses no reserved name.  It compiles iff the
    expression does with both numbers of a mixed rule read as floats, and then gives the result of
    the expression so read and marks exactly the rules evaluated with a true condition. -/
theorem instrumented_meaning (M : Machine F) (P : Platform F) (tree : Node F)
    (hfree : tree.memberFree = true) (hres : tree.mentions isReserved = false) :
    (instrument M tree).isSome = (compile M (floatRules tree)).isSome ∧
    ∀ prog rules written, instrument M tree = some (prog, rules) →
      compile M (floatRules tree) = some written →
      rules.length = ruleCount tree ∧
      ∀ (params : TokenParams F) (request : RequestInput F),
        (runProgram M P prog rules params request).1 = (runWritten M P written params request).1 ∧
        ∀ i, i < rules.length →
          (((runProgram M P prog rules params request).2.requestRules[i]?.any fun rule =>
            rule.matched) = true ↔ i ∈ (runWritten M P written params request).2) := by
  refine ⟨?_, ?_⟩
  · rw [instrument_eq M hres, Option.isSome_map]
  intro prog rules written hprog hwritten
  rw [instrument_eq M hres, hwritten] at hprog
  simp only [Option.map_some] at hprog
  obtain ⟨rfl, rfl⟩ := hprog
  -- what compiles is the conversion of the expression as read, which keeps its shape
  have hshape : written = convert M (floatRules tree) := compile_eq_some hwritten
  have heven : evenRules written = true := by
    rw [hshape, evenRules_convert, evenRules_floatRules]
  have hfree' : written.memberFree = true := by
    rw [hshape, memberFree_convert, memberFree_floatRules, hfree]
  have hres' : written.mentions isReserved = false := by
    rw [hshape, mentions_convert, mentions_floatRules, hres]
  have hunmatched : ∀ rule ∈ (patch tree []).2, rule.matched = false :=
    patch_unmatched tree (by simp)
  refine ⟨?_, fun params request => ?_⟩
  · obtain ⟨-, found, hfound, hlength⟩ := patch_spec tree []
    rw [hfound, List.nil_append, hlength]
  obtain ⟨hresult, hrules⟩ := runProgram_patchAt M P (patch tree []).2 heven hfree' hres' params
    request
  refine ⟨hresult, fun i hi => ?_⟩
  have hold := hunmatched _ (List.getElem_mem hi)
  rw [hrules]
  simp [flagged, hi, hold]

/-- No rule of the program has a condition that is nil. -/
def NoNilCondition (M : Machine F) (P : Platform F) (prog : Node F) (params : TokenParams F)
    (request : RequestInput F) : Prop :=
  ∀ imageCount, ∀ cond ∈ ruleConditions prog, ∀ n,
    (eval M (asWritten M P params request imageCount) n cond).Returns fun v => v.isNil = false

/-- Then the run as written is the run. -/
theorem runProgram_eq_written (hM : M.Arithmetic) {prog : Node F}
    (hnil : NoNilCondition M P prog params request) :
    (runProgram M P prog [] params request).1 = (runWritten M P prog params request).1 := by
  cases hrun : (runProgram M P prog [] params request).1 with
  | ok f => rw [runProgram_written M P params request f hrun]
  | error e =>
    unfold runProgram at hrun
    unfold runWritten
    cases hcount : imageCountFor (usesImageCount prog) request with
    | none =>
      rw [hcount] at hrun
      exact hrun.symm
    | some imageCount =>
      rw [hcount] at hrun
      dsimp only at hrun ⊢
      have href := runFloat_extends M (asWritten_extends M P params request hM imageCount) prog
        (hnil imageCount)
        (initialTrace (usesImageCount prog) imageCount [], [])
        (initialTrace (usesImageCount prog) imageCount []) rfl
      generalize runFloat M (asWritten M P params request imageCount) prog
        (initialTrace (usesImageCount prog) imageCount [], []) = out at href ⊢
      obtain ⟨_ | f, t⟩ := out
      · cases hout : (runFloat M (environment P params request imageCount) prog
          (initialTrace (usesImageCount prog) imageCount [])).1 with
        | none =>
          rw [hout] at hrun
          exact hrun.symm
        | some f =>
          rw [hout] at hrun
          cases hrun
      · obtain ⟨_, s, hs, -⟩ := href f t rfl
        rw [hs] at hrun
        cases hrun

/-- Both readings of a factored tree run alike. -/
theorem runWritten_floatRules (hM : M.Arithmetic) {tree : Node F} (h : Factored M tree) :
    runWritten M P (convert M (floatRules tree)) params request =
      runWritten M P (convert M tree) params request := by
  have huses : usesImageCount (convert M (floatRules tree)) = usesImageCount (convert M tree) := by
    simp only [usesImageCount, mentions_convert, mentions_floatRules]
  simp only [runWritten, runFloat, huses, eval_floatRules hM
    (asWritten_floatCalls M P params request _) h]

/-- A platform without named zones. -/
def plainPlatform : Platform Whole where
  toLower := id
  sprint _ := ""
  utc := { hour := 9, minute := 0, weekday := 1, month := 6, day := 1 }
  zone _ := none

def noTokens : TokenParams Whole where
  p := ⟨0⟩
  c := ⟨0⟩
  len := ⟨0⟩
  cr := ⟨0⟩
  cc := ⟨0⟩
  cc1h := ⟨0⟩
  img := ⟨0⟩
  imgCR := ⟨0⟩
  imgO := ⟨0⟩
  ai := ⟨0⟩
  ao := ⟨0⟩

/-- An unknown operand of arithmetic may be a float. -/
theorem binaryType_sharpens {op : BinaryOp} {l l' r r' : Ty} (hop : op.isArithmetic = true)
    (hl : Ty.Sharpens l l') (hr : Ty.Sharpens r r') (hstr : op = .add → l ≠ .str ∧ r ≠ .str) :
    Option.Rel Ty.Sharpens (binaryType op l r) (binaryType op l' r') := by
  cases hl with
  | refl =>
    cases hr with
    | refl => exact rel_refl .refl _
    | float => cases op <;> cases hop <;> cases l <;>
        first
          | exact .none
          | exact .some (.refl _)
          | exact .some .float
          | exact absurd rfl (hstr rfl).1
  | float =>
    cases hr with
    | refl => cases op <;> cases hop <;> cases r <;>
        first
          | exact .none
          | exact .some (.refl _)
          | exact .some .float
          | exact absurd rfl (hstr rfl).2
    | float => cases op <;> cases hop <;> constructor <;> constructor

/-- Whole numbers are computed with as expr-lang does. -/
theorem exprLang_arithmetic : exprLang.Arithmetic where
  types := binaryType_sharpens
  float {op l r d} hop hfloat hd := by
    obtain ⟨x, rfl⟩ | ⟨x, rfl⟩ := hfloat
    · rcases r with (_ | _) | _ | _ <;> cases op <;> cases hop <;> cases hd <;> exact ⟨_, rfl⟩
    · rcases l with (_ | _) | _ | _ <;> cases op <;> cases hop <;> cases hd <;> exact ⟨_, rfl⟩
  mul_int _ _ := rfl
  int_mul _ _ := rfl
  condition f v hv := by
    cases v with
    | data d => cases d <;> first | rfl | cases hv
    | func _ | env => rfl

/-- `tier("base", p * 2) * (param("vip") == nil ? 3.0 : 1)`. -/
def vipPrice : Node Whole :=
  .binary .mul
    (.call (.identifier "tier") [.string "base", .binary .mul (.identifier "p") (.integer 2)])
    (.conditional true (.binary .eq (.call (.identifier "param") [.string "vip"]) .nil) (.float ⟨3⟩)
      (.integer 1))

theorem vipPrice_factored : Factored exprLang vipPrice :=
  .factor (.even (by decide)) (by decide) ⟨by decide, by decide, by decide⟩

/-- `(param("a") == 1 ? 2.0 : 1) % 2`: a rule with a float and an integer, where only integers are
    admissible. -/
def mixedModulo : Node Whole :=
  .binary .mod
    (.conditional true (.binary .eq (.call (.identifier "param") [.string "a"]) (.integer 1))
      (.float ⟨2⟩) (.integer 1))
    (.integer 2)

/-- `param("vip") ? 2 : 1`. -/
def bareProbe : Node Whole :=
  .conditional true (.call (.identifier "param") [.string "vip"]) (.integer 2) (.integer 1)

end TokenGateway.Expression
