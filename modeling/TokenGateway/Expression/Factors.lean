import TokenGateway.Expression.Instrumented

namespace TokenGateway.Expression

open Base

/-!
# Mixed rules as factors

A mixed rule such as `tier("base", p * 2) * (param("vip") == true ? 0.5 : 1)` multiplies a float,
and there it makes no difference that its integer literal is read as a float.

* `Machine.Arithmetic` — what that takes from the operators;
* `floats`, `Factored` — trees that give a float, and trees whose mixed rules are factors of such;
* `typeOf_floatRules`, `eval_floatRules` — the two readings of a factored tree have the same type,
  up to `unknown` for `float`, and the same run.
-/

variable {F σ : Type}

/-- Known to be a float instead of unknown, or the same. -/
inductive Ty.Sharpens : Ty → Ty → Prop where
  | refl (t : Ty) : Sharpens t t
  | float : Sharpens .unknown .float

def BinaryOp.isArithmetic : BinaryOp → Bool
  | .add | .sub | .mul | .div => true
  | _ => false

def Value.IsFloat (v : Value F) : Prop := ∃ f, v = .data (.float f)

theorem returns_branch {P : Value F → Prop} {b : Option Bool} {x y : Run σ (Value F)}
    (hx : x.Returns P)
    (hy : y.Returns P) : (branch b x y).Returns P := by
  rcases b with _ | _ | _
  · exact Run.Keeps.fail fun _ => trivial
  · exact hy
  · exact hx

theorem identifier_entry {H : Handler F σ} {name : String} {entry : EnvEntry}
    (h : envEntry name = some entry) :
    H.identifier name = H.load name := by
  refine if_neg fun henv => ?_
  rw [beq_iff_eq.mp henv] at h
  cases h

variable [Float64 F]

/-- Arithmetic as expr-lang has it, on types and on values. -/
structure Machine.Arithmetic (M : Machine F) : Prop where
  /-- A float is admissible where an unknown type is, unless the other operand makes it a sum of
      texts. -/
  types : ∀ {op l l' r r'}, op.isArithmetic = true → Ty.Sharpens l l' → Ty.Sharpens r r' →
    (op = .add → l ≠ .str ∧ r ≠ .str) → Option.Rel Ty.Sharpens (M.binaryType op l r)
      (M.binaryType op l' r')
  /-- What is computed with a float is a float. -/
  float : ∀ {op l r d}, op.isArithmetic = true → l.IsFloat ∨ r.IsFloat → M.binary op l r = some d →
    (Value.data d).IsFloat
  /-- An integer factor of a float is converted. -/
  mul_int : ∀ x i, M.binary .mul (.data (.float x)) (.data (.int i)) =
    M.binary .mul (.data (.float x)) (.data (.float (Float64.ofInt i)))
  int_mul : ∀ x i, M.binary .mul (.data (.int i)) (.data (.float x)) =
    M.binary .mul (.data (.float (Float64.ofInt i))) (.data (.float x))
  /-- Only a boolean or nil is taken for a `bool` parameter. -/
  condition : ∀ f v, v.isNil = false → (M.pass f .bool v).bind Value.asBool = v.asBool

/-! ### Factored trees -/

/-- The tree gives a float: one of a literal, a variable or a call of a function is computed
    with. -/
def floats : Node F → Bool
  | .float _ => true
  | .identifier name => (envEntry name).any fun | .var _ => true | .func _ => false
  | .call (.identifier name) _ => (envEntry name).any fun
      | .var _ => false
      | .func f => f.result == .float
  | .binary op left right => op.isArithmetic && (floats left || floats right)
  | .conditional _ _ exp1 exp2 => floats exp1 && floats exp2
  | _ => false

/-- A request rule with an integer and a float literal, and none in its condition. -/
inductive MixedRule : Node F → Prop where
  | mk {ternary : Bool} {cond exp1 exp2 : Node F} (heven : evenRules cond = true)
    (hrule : isRequestRule (.conditional ternary cond exp1 exp2) = true)
      (hkind : sameKind exp1 exp2 = false) :
    MixedRule (.conditional ternary cond exp1 exp2)

/-- Every mixed rule is a factor of a float.  The product may be part of arithmetic, of an argument
    for a `float64` and of a branch, in any nesting. -/
inductive Factored (M : Machine F) : Node F → Prop where
  | even {node : Node F} (heven : evenRules node = true) : Factored M node
  | factor {left right : Node F} (hl : Factored M left) (hfloat : floats left = true)
    (hr : MixedRule right) :
    Factored M (.binary .mul left right)
  | factorOf {left right : Node F} (hl : MixedRule left) (hr : Factored M right)
    (hfloat : floats right = true) :
    Factored M (.binary .mul left right)
  | arithmetic {op : BinaryOp} {left right : Node F} (hop : op.isArithmetic = true)
    (hl : Factored M left)
    (hr : Factored M right) (hstr : op = .add → typeOf M left ≠ some .str ∧
      typeOf M right ≠ some .str) :
    Factored M (.binary op left right)
  /-- The arguments come with the types of their parameters. -/
  | call {callee : Node F} {f : HostFunction} {args : List (Ty × Node F)}
    (heven : evenRules callee = true)
    (htype : typeOf M callee = some (.func f)) (hparams : f.params = args.map Prod.fst)
    (hargs : ∀ arg ∈ args, Factored M arg.2)
    (hfloat : ∀ arg ∈ args, evenRules arg.2 = true ∨ arg.1 = .float ∧ typeOf M arg.2 ≠ some .int) :
    Factored M (.call callee (args.map Prod.snd))
  | conditional {ternary : Bool} {cond exp1 exp2 : Node F} (heven : evenRules cond = true)
    (h1 : Factored M exp1) (h2 : Factored M exp2)
    (hrule : isRequestRule (.conditional ternary cond exp1 exp2) = false) :
    Factored M (.conditional ternary cond exp1 exp2)

variable {M : Machine F}

/-- Both readings of a mixed rule. -/
theorem MixedRule.floatRules_eq {node : Node F} (h : MixedRule node) :
    ∃ ternary cond exp1 exp2, node = .conditional ternary cond exp1 exp2 ∧
      isRequestRule (.conditional ternary cond exp1 exp2) = true ∧
      floatRules node = .conditional ternary cond (floatNumber exp1) (floatNumber exp2) ∧
      ((∃ i f, exp1 = .integer i ∧ exp2 = .float f) ∨ ∃ f i, exp1 = .float f ∧
        exp2 = .integer i) := by
  obtain ⟨heven, hrule, hkind⟩ := h
  obtain ⟨-, h1, h2⟩ := rule_literals hrule
  rename_i ternary cond exp1 exp2
  refine ⟨ternary, cond, exp1, exp2, rfl, hrule, ?_, ?_⟩
  · rw [floatRules, hrule, hkind, floatRules_of_even cond heven]
    rfl
  · obtain ⟨i, rfl⟩ | ⟨f, rfl⟩ := h1 <;> obtain ⟨j, rfl⟩ | ⟨g, rfl⟩ := h2
    · simp [sameKind] at hkind
    · exact .inl ⟨i, g, rfl, rfl⟩
    · exact .inr ⟨f, j, rfl, rfl⟩
    · simp [sameKind] at hkind

theorem floatRules_plain {ternary : Bool} {cond exp1 exp2 : Node F} (heven : evenRules cond = true)
    (hrule : isRequestRule (.conditional ternary cond exp1 exp2) = false) :
    floatRules (.conditional ternary cond exp1 exp2) =
      .conditional ternary cond (floatRules exp1) (floatRules exp2) := by
  rw [floatRules, hrule, floatRules_of_even cond heven]
  rfl

/-! ### Types -/

theorem rel_refl {α : Type} {R : α → α → Prop} (hR : ∀ a, R a a) (o : Option α) :
    Option.Rel R o o := by
  cases o with
  | none => exact .none
  | some a => exact .some (hR a)

theorem rel_bind {α β : Type} {R : α → α → Prop} {S : β → β → Prop} {o o' : Option α}
    {g g' : α → Option β} (h : Option.Rel R o o')
    (hg : ∀ a a', o = some a → R a a' → Option.Rel S (g a) (g' a')) :
    Option.Rel S (o.bind g) (o'.bind g') := by
  cases h with
  | none => exact .none
  | some h => exact hg _ _ rfl h

theorem MixedRule.type {node : Node F} (h : MixedRule node) :
    Option.Rel Ty.Sharpens (typeOf M node) (typeOf M (floatRules node)) := by
  obtain ⟨ternary, cond, exp1, exp2, rfl, -, hfloat, hexp⟩ := h.floatRules_eq
  rw [hfloat]
  obtain ⟨i, f, rfl, rfl⟩ | ⟨f, i, rfl, rfl⟩ := hexp <;>
  · simp only [typeOf, floatNumber, Option.bind_some, conditionalType]
    refine rel_bind (rel_refl (fun _ => rfl) _) ?_
    rintro c _ - rfl
    split_ifs
    · exact .some .float
    · exact .none

theorem branchType_sharpens {t t' e e' : Ty} (ht : Ty.Sharpens t t') (he : Ty.Sharpens e e') :
    Ty.Sharpens (branchType t e) (branchType t' e') := by
  cases ht with
  | refl =>
    cases he with
    | refl => exact .refl _
    | float => cases t <;> constructor
  | float =>
    cases he with
    | refl => cases e <;> constructor
    | float => exact .float

/-- The types of the arguments, which fit their parameters alike. -/
theorem typesOf_floatRules {args : List (Ty × Node F)}
    (htypes : ∀ arg ∈ args, Option.Rel Ty.Sharpens (typeOf M arg.2) (typeOf M (floatRules arg.2)))
    (hfloat : ∀ arg ∈ args, evenRules arg.2 = true ∨ arg.1 = .float ∧ typeOf M arg.2 ≠ some .int) :
    Option.Rel (fun ts ts' => ts'.length = ts.length ∧
        (((args.map Prod.fst).zip ts').all fun pa => accepts pa.1 pa.2) =
          ((args.map Prod.fst).zip ts).all fun pa => accepts pa.1 pa.2)
      (typesOf M (args.map Prod.snd)) (typesOf M (floatRulesArgs (args.map Prod.snd))) := by
  induction args with
  | nil => exact .some ⟨rfl, rfl⟩
  | cons arg rest ih =>
    rw [List.forall_mem_cons] at htypes hfloat
    have hhead : Option.Rel (fun t t' => accepts arg.1 t' = accepts arg.1 t) (typeOf M arg.2)
        (typeOf M (floatRules arg.2)) := by
      obtain heven | ⟨hparam, -⟩ := hfloat.1
      · rw [floatRules_of_even _ heven]
        exact rel_refl (R := fun t t' => accepts arg.1 t' = accepts arg.1 t) (fun _ => rfl) _
      · rw [hparam]
        have htype := htypes.1
        generalize typeOf M arg.2 = o, typeOf M (floatRules arg.2) = o' at htype ⊢
        cases htype with
        | none => exact .none
        | some h =>
          refine .some ?_
          cases h <;> rfl
    refine rel_bind hhead fun t t' _ ht => rel_bind (ih htypes.2 hfloat.2) fun ts ts' _ hts =>
      .some ?_
    simp [ht, hts.1, hts.2]

/-- **The two readings have the same type**, up to `unknown` for `float`. -/
theorem typeOf_floatRules (hM : M.Arithmetic) {node : Node F} (h : Factored M node) :
    Option.Rel Ty.Sharpens (typeOf M node) (typeOf M (floatRules node)) := by
  induction h with
  | even heven =>
    rw [floatRules_of_even _ heven]
    exact rel_refl .refl _
  | factor _ _ hr ihl =>
    exact rel_bind ihl fun l l' _ hl => rel_bind hr.type fun r r' _ hr => hM.types rfl hl hr nofun
  | factorOf hl _ _ ihr =>
    exact rel_bind hl.type fun l l' _ hl => rel_bind ihr fun r r' _ hr => hM.types rfl hl hr nofun
  | arithmetic hop _ _ hstr ihl ihr =>
    refine rel_bind ihl fun l l' htl hl => rel_bind ihr fun r r' htr hr =>
      hM.types hop hl hr fun hadd => ?_
    have hno := hstr hadd
    rw [htl, htr] at hno
    exact ⟨fun h => hno.1 (congrArg some h), fun h => hno.2 (congrArg some h)⟩
  | call heven htype hparams _ hfloat ih =>
    simp only [typeOf, floatRules, floatRules_of_even _ heven, htype, Option.bind_some]
    refine rel_bind (typesOf_floatRules ih hfloat) fun ts ts' _ hts => ?_
    simp only [callType, hparams, hts.1, hts.2]
    exact rel_refl .refl _
  | conditional heven _ _ hrule ih1 ih2 =>
    rw [floatRules_plain heven hrule]
    simp only [typeOf]
    refine rel_bind (rel_refl (fun _ => rfl) _) ?_
    rintro c _ - rfl
    refine rel_bind ih1 fun t t' _ ht => rel_bind ih2 fun e e' _ he => ?_
    unfold conditionalType
    split_ifs
    · exact .some (branchType_sharpens ht he)
    · exact .none

/-! ### Values -/

/-- The functions whose type is `float64` return floats. -/
def FloatCalls (H : Handler F σ) : Prop :=
  ∀ f args, f.result = .float → (H.call f args).Returns fun d => (Value.data d).IsFloat

variable {H : Handler F σ}

theorem arithmetic_eval {op : BinaryOp} (hop : op.isArithmetic = true) (left right : Node F)
    (n : Nat) :
    eval M H n (.binary op left right) = (eval M H n left >>= fun l =>
      eval M H (n + ruleCount left) right >>= fun r => Run.lift ((M.binary op l r).map .data)) := by
  cases op with
  | add | sub | mul | div => rw [eval]
  | _ => cases hop

/-- **A tree that gives a float returns one.** -/
theorem floats_eval (hM : M.Arithmetic) (hH : FloatCalls H) (node : Node F) (h : floats node = true)
    (n : Nat) :
    (eval M H n (convert M node)).Returns Value.IsFloat := by
  fun_induction floats node generalizing n with
  | case1 f => exact Run.Keeps.pure (fun _ => trivial) ⟨f, rfl⟩
  | case2 name =>
    obtain ⟨entry, hentry, hvar⟩ := (Option.any_eq_true _ _).mp h
    refine Run.Keeps.lift (fun _ => trivial) fun v hv => ?_
    rw [identifier_entry hentry, Handler.load, hentry] at hv
    cases entry with
    | func f => cases hvar
    | var x => exact ⟨_, (Option.some.inj hv).symm⟩
  | case3 name args =>
    obtain ⟨entry, hentry, hfunc⟩ := (Option.any_eq_true _ _).mp h
    cases entry with
    | var x => cases hfunc
    | func f =>
      have hcallee : H.identifier name = some (.func f) := by
        rw [identifier_entry hentry, Handler.load, hentry]
        rfl
      rw [convert, eval]
      refine Run.Returns.bind (Run.returns_any _) fun vs _ => ?_
      simp only [convert, eval, hcallee, Run.lift_some, Run.pure_bind]
      refine Run.Returns.bind (Run.returns_any _) fun ws _ =>
        Run.Returns.bind (hH f ws (beq_iff_eq.mp hfunc)) fun d hd => ?_
      exact Run.Keeps.pure (fun _ => trivial) hd
  | case4 op left right ihl ihr =>
    rw [Bool.and_eq_true, Bool.or_eq_true] at h
    rw [convert, arithmetic_eval h.1]
    have hlift {l r : Value F} (hlr : l.IsFloat ∨ r.IsFloat) :
        (Run.lift ((M.binary op l r).map .data) : Run σ (Value F)).Returns Value.IsFloat := by
      refine Run.Keeps.lift (fun _ => trivial) fun v hv => ?_
      obtain ⟨d, hd, rfl⟩ := Option.map_eq_some_iff.mp hv
      exact hM.float h.1 hlr hd
    rcases h.2 with hfloat | hfloat
    · exact Run.Returns.bind (ihl hfloat n) fun l hl => Run.Returns.bind (Run.returns_any _)
        fun r _ => hlift (.inl hl)
    · exact Run.Returns.bind (Run.returns_any _) fun l _ => Run.Returns.bind (ihr hfloat _)
        fun r hr => hlift (.inr hr)
  | case5 ternary cond exp1 exp2 ih1 ih2 =>
    rw [Bool.and_eq_true] at h
    rw [convert, eval]
    refine Run.Returns.bind (Run.returns_any _) fun v _ => ?_
    split
    · exact returns_branch (fun s => ih1 h.1 _ _) (ih2 h.2 _)
    · exact returns_branch (ih1 h.1 _) (ih2 h.2 _)
  | case6 => cases h

/-- Where an integer is as good as a float, so are the two readings of a mixed rule. -/
theorem MixedRule.bind_eq {node : Node F} (h : MixedRule node) (n : Nat) {β : Type}
    {g : Value F → Run σ β}
    (hg : ∀ i, g (.data (.float (Float64.ofInt i))) = g (.data (.int i))) :
    (eval M H n (convert M (floatRules node)) >>= g) = (eval M H n (convert M node) >>= g) := by
  obtain ⟨ternary, cond, exp1, exp2, rfl, hrule, hfloat, hexp⟩ := h.floatRules_eq
  have hread := isRequestRule_floatRules ternary cond exp1 exp2
  rw [hfloat, hrule] at hread
  rw [hfloat]
  simp only [convert, eval, isRequestRule_convert, hread, hrule, if_true, Run.bind_assoc]
  refine congrArg _ (funext fun v => ?_)
  obtain ⟨i, f, rfl, rfl⟩ | ⟨f, i, rfl, rfl⟩ := hexp
  all_goals
    simp only [floatNumber, convert, eval, ruleFunction]
    rcases H.condition .trace v with _ | _ | _
  · rfl
  · rfl
  · exact funext fun s => congrFun (hg i) _
  · rfl
  · exact hg i
  · rfl

/-- The arguments of a call. -/
theorem evalArgs_floatRules (hM : M.Arithmetic) {args : List (Ty × Node F)}
    (hargs : ∀ arg ∈ args, Factored M arg.2)
    (heval : ∀ arg ∈ args, ∀ n, eval M H n (convert M (floatRules arg.2)) =
      eval M H n (convert M arg.2))
    (hfloat : ∀ arg ∈ args, evenRules arg.2 = true ∨ arg.1 = .float ∧ typeOf M arg.2 ≠ some .int)
    (n : Nat) :
    evalArgs M H n (convertArgs M (args.map Prod.fst) (floatRulesArgs (args.map Prod.snd))) =
      evalArgs M H n (convertArgs M (args.map Prod.fst) (args.map Prod.snd)) := by
  induction args generalizing n with
  | nil => rfl
  | cons arg rest ih =>
    rw [List.forall_mem_cons] at hargs heval hfloat
    have hcount (node : Node F) : ruleCount (convertArg M (arg.1 :: rest.map Prod.fst) node) =
      ruleCount node :=
      convertArg_of M ruleCount _ ruleCount_floatLiterals (ruleCount_convert M node)
    have hhead : eval M H n (convertArg M (arg.1 :: rest.map Prod.fst) (floatRules arg.2)) =
        eval M H n (convertArg M (arg.1 :: rest.map Prod.fst) arg.2) := by
      obtain heven | ⟨-, hint⟩ := hfloat.1
      · rw [floatRules_of_even _ heven]
      · have hint' : typeOf M (floatRules arg.2) ≠ some .int := by
          have htype := typeOf_floatRules hM hargs.1
          generalize typeOf M arg.2 = o, typeOf M (floatRules arg.2) = o' at htype hint ⊢
          rcases htype with (_ | _) | _
          · exact hint
          · nofun
          · nofun
        rw [convertArg, if_neg fun h => hint' h.2, convertArg, if_neg fun h => hint h.2, heval.1]
    simp only [List.map_cons, floatRulesArgs, convertArgs_cons, evalArgs, hhead, hcount,
      ruleCount_floatRules, List.tail_cons, ih hargs.2 heval.2 hfloat.2]

/-- **The two readings run alike.** -/
theorem eval_floatRules (hM : M.Arithmetic) (hH : FloatCalls H) {node : Node F}
    (h : Factored M node) (n : Nat) :
    eval M H n (convert M (floatRules node)) = eval M H n (convert M node) := by
  induction h generalizing n with
  | even heven => rw [floatRules_of_even _ heven]
  | @factor left right _ hfloat hr ihl =>
    rw [floatRules, convert, convert, arithmetic_eval rfl, arithmetic_eval rfl, ihl,
      ruleCount_convert, ruleCount_floatRules, ruleCount_convert]
    refine Run.Returns.bind_congr (floats_eval hM hH _ hfloat n) ?_
    rintro _ ⟨x, rfl⟩
    exact hr.bind_eq _ fun i => by rw [hM.mul_int]
  | @factorOf left right hl _ hfloat ihr =>
    rw [floatRules, convert, convert, arithmetic_eval rfl, arithmetic_eval rfl, ihr,
      ruleCount_convert, ruleCount_floatRules, ruleCount_convert]
    refine hl.bind_eq n fun i => ?_
    refine Run.Returns.bind_congr (floats_eval hM hH _ hfloat _) ?_
    rintro _ ⟨x, rfl⟩
    rw [hM.int_mul]
  | arithmetic hop _ _ _ ihl ihr =>
    simp only [floatRules, convert, arithmetic_eval hop, ihl, ihr, ruleCount_convert,
      ruleCount_floatRules]
  | call heven htype hparams hargs hfloat ih =>
    simp only [floatRules, floatRules_of_even _ heven, convert, eval, calleeParams, htype, hparams,
      evalArgs_floatRules hM hargs ih hfloat]
  | @conditional ternary cond exp1 exp2 heven _ _ hrule ih1 ih2 =>
    have hread := (isRequestRule_floatRules ternary cond exp1 exp2).trans hrule
    rw [floatRules_plain heven hrule] at hread ⊢
    simp only [convert, eval, isRequestRule_convert, hread, hrule, ih1, ih2, ruleCount_convert,
      ruleCount_floatRules, Bool.false_eq_true, if_false]

end TokenGateway.Expression
