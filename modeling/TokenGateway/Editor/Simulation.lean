import TokenGateway.Editor.Parity

namespace TokenGateway.Editor

open Base Expression

/-!
# Evaluating a tree on both sides

Induction over the tree: a successful evaluation of the editor is matched by the run of the tree
that the backend has compiled, with both numbers of a mixed rule read as floats and integer literals
converted where a `float64` is expected.

* `Suits` — where an integer that is held as a float does no harm: the tree has no `%`, or no mixed
  rules;
* `call_refines`, `conditional_refines` — the steps;
* `evaluate_refines` — the whole tree.
-/

variable {F : Type}

/-! ### Rules -/

/-- A rule that is evaluated with a true condition is marked on both sides. -/
theorem mark_rel {multipliers : List F} {s : BillingRuntime F} {t : TraceResult F × List Nat}
    (index : Nat)
    (h : StateRel multipliers s t) :
    StateRel multipliers (markRule (some index) s) (t.1, index :: t.2) := by
  refine ⟨h.matchedTier, h.billingUnit, h.fixedPrice, ?_⟩
  simp only [markRule, h.requestRules]
  apply List.ext_getElem
  · simp
  intro i h1 h2
  by_cases hi : index = i
  · subst hi
    simp
  · have hi' : i ≠ index := fun h => hi h.symm
    simp [hi, hi']

/-! ### Names -/

variable {σ : Type}

theorem identifier_function (H : Handler F σ) (f : BillingFunction) :
    H.identifier f.name = some (.func f.host) := by
  cases f <;> rfl

theorem identifier_variable (H : Handler F σ) (v : Variable) :
    H.identifier (variableName v) = some (.data (.float (H.value v))) := by
  cases v <;> rfl

theorem calleeParams_function (M : Machine F) (f : BillingFunction) :
    calleeParams M (.identifier f.name) = f.host.params := by
  cases f <;> rfl

variable [Arithmetic F]

/-! ### Counting rules -/

/-- Both sides see the same request rules. -/
theorem ruleOf_isSome (path : List Nat) (condition yes no : ExpressionNode F) :
    (ruleOf path (.conditional condition yes no)).isSome =
      isRequestRule (toNode (.conditional condition yes no)) := by
  simp only [ruleOf, toNode, isRequestRule, usesRequestProbe_toNode, requestRuleNumber_toNode_eq]
  cases literalNumber yes with
  | none => simp
  | some multiplier =>
    cases literalNumber no with
    | none => simp
    | some fallback =>
      by_cases hone : Float64.eq fallback (Float64.ofInt 1) = true <;>
        by_cases hprobe : calls isProbe condition = true <;> simp [hone, hprobe]

mutual

/-- Both sides count the same rules. -/
theorem requestRules_length (path : List Nat) :
    ∀ node : ExpressionNode F, (requestRules path node).length = ruleCount (toNode node)
  | .literal value => by cases value <;> rfl
  | .variable _ => rfl
  | .call name args => by
    simp [requestRules, toNode, ruleCount, requestRulesOf_length]
  | .unary .. | .binary .. => by
    simp [requestRules, toNode, ruleCount, requestRules_length]
  | .conditional condition yes no => by
    have hown : (ruleOf path (.conditional condition yes no)).toList.length =
        (isRequestRule (toNode (.conditional condition yes no))).toNat := by
      rw [← ruleOf_isSome]
      cases ruleOf path (.conditional condition yes no) <;> rfl
    simp only [requestRules, List.length_append, hown, requestRules_length]
    rfl

theorem requestRulesOf_length (path : List Nat) (i : Nat) :
    ∀ nodes : List (ExpressionNode F), (requestRulesOf path i nodes).length =
      ruleCounts (toNodes nodes)
  | [] => rfl
  | node :: rest => by
    simp [requestRulesOf, toNodes, ruleCounts, requestRules_length, requestRulesOf_length]

end

/-! ### Where integers may become floats -/

mutual

/-- `exact`: no rule of the tree is mixed; otherwise the tree has no `%`.  `agree` is what holds of
    the image count if the tree reads it. -/
def Suits (exact : Bool) (agree : Prop) : ExpressionNode F → Prop
  | .literal _ => True
  | .variable name => name = .imageCount → agree
  | .call _ args => SuitsAll exact agree args
  | .unary _ operand => Suits exact agree operand
  | .binary operator left right =>
    (exact = false → operator ≠ .mod) ∧ Suits exact agree left ∧ Suits exact agree right
  | .conditional condition yes no =>
    (exact = true → isRequestRule (toNode (.conditional condition yes no)) = true →
      sameKind (toNode yes) (toNode no) = true) ∧
    Suits exact agree condition ∧ Suits exact agree yes ∧ Suits exact agree no

def SuitsAll (exact : Bool) (agree : Prop) : List (ExpressionNode F) → Prop
  | [] => True
  | node :: rest => Suits exact agree node ∧ SuitsAll exact agree rest

end

mutual

/-- The tree computes a remainder. -/
def usesModulo : ExpressionNode F → Bool
  | .literal _ | .variable _ => false
  | .call _ args => usesModuloAny args
  | .unary _ operand => usesModulo operand
  | .binary operator left right => operator == .mod || usesModulo left || usesModulo right
  | .conditional condition yes no => usesModulo condition || usesModulo yes || usesModulo no

def usesModuloAny : List (ExpressionNode F) → Bool
  | [] => false
  | node :: rest => usesModulo node || usesModuloAny rest

end

variable {exact : Bool} {agree : Prop}

mutual

theorem suits_of :
    ∀ node : ExpressionNode F, (exact = false → usesModulo node = false) →
      (exact = true → evenRules (toNode node) = true) → (reads .imageCount node = true → agree) →
      Suits exact agree node
  | .literal _, _, _, _ => trivial
  | .variable _, _, _, h => fun heq => h (by rw [heq]; rfl)
  | .call _ args, hmod, heven, h => by
    simp only [toNode] at heven
    exact suitsAll_of args hmod heven h
  | .unary _ operand, hmod, heven, h => suits_of operand hmod heven h
  | .binary operator left right, hmod, heven, h => by
    simp only [usesModulo, Bool.or_eq_false_iff, beq_eq_false_iff_ne] at hmod
    simp only [toNode, evenRules, Bool.and_eq_true] at heven
    simp only [reads, Bool.or_eq_true] at h
    exact ⟨fun hn => (hmod hn).1.1,
      suits_of left (fun hn => (hmod hn).1.2) (fun he => (heven he).1) fun hr => h (.inl hr),
      suits_of right (fun hn => (hmod hn).2) (fun he => (heven he).2) fun hr => h (.inr hr)⟩
  | .conditional condition yes no, hmod, heven, h => by
    simp only [usesModulo, Bool.or_eq_false_iff] at hmod
    simp only [toNode, evenRules, Bool.and_eq_true, Bool.or_eq_true, Bool.not_eq_true'] at heven
    simp only [reads, Bool.or_eq_true] at h
    refine ⟨fun he hrule => ?_,
      suits_of condition (fun hn => (hmod hn).1.1) (fun he => (heven he).1.1.1) fun hr =>
        h (.inl (.inl hr)),
      suits_of yes (fun hn => (hmod hn).1.2) (fun he => (heven he).1.1.2) fun hr =>
        h (.inl (.inr hr)),
      suits_of no (fun hn => (hmod hn).2) (fun he => (heven he).1.2) fun hr => h (.inr hr)⟩
    rcases (heven he).2 with hnot | hkind
    · rw [toNode, hnot] at hrule
      cases hrule
    · exact hkind

theorem suitsAll_of :
    ∀ nodes : List (ExpressionNode F), (exact = false → usesModuloAny nodes = false) →
      (exact = true → evenRulesArgs (toNodes nodes) = true) →
      (readsAny .imageCount nodes = true → agree) → SuitsAll exact agree nodes
  | [], _, _, _ => trivial
  | node :: rest, hmod, heven, h => by
    simp only [usesModuloAny, Bool.or_eq_false_iff] at hmod
    simp only [toNodes, evenRulesArgs, Bool.and_eq_true] at heven
    simp only [readsAny, Bool.or_eq_true] at h
    exact ⟨suits_of node (fun hn => (hmod hn).1) (fun he => (heven he).1) fun hr => h (.inl hr),
      suitsAll_of rest (fun hn => (hmod hn).2) (fun he => (heven he).2) fun hr => h (.inr hr)⟩

end

/-! ### The check of every value -/

theorem check_bind {α : Type} (x : Run (BillingRuntime F) α)
    (f : α → Run (BillingRuntime F) (Datum F)) : check (x >>= f) = x >>= fun a => check (f a) :=
  Run.bind_assoc x f _

theorem check_lift (o : Option (Datum F)) :
    check (Run.lift o : Run (BillingRuntime F) (Datum F)) = Run.lift (o.bind checked) := by
  cases o <;> rfl

theorem bind_checked {o : Option (Datum F)} {d : Datum F} (h : o.bind checked = some d) :
    o = some d ∧ checked d = some d := by
  obtain ⟨d', ho, hc⟩ := Option.bind_eq_some_iff.mp h
  obtain rfl := checked_some hc
  exact ⟨ho, hc⟩

variable {Q : Datum F → Value F → Prop} {x : Run (BillingRuntime F) (Datum F)}

theorem check_refines {τ : Type} {ok : BillingRuntime F → Prop} {R : BillingRuntime F → τ → Prop}
    {y : Run τ (Value F)} (h : Run.RefinesTo ok R Q x y) : Run.RefinesTo ok R Q (check x) y :=
  h.test fun _ _ _ hq hc => by rw [checked_some hc]; exact hq

/-! ### Going back along an evaluation -/

section Back

variable {M : Machine F} {P : Platform F} {B : Browser F} {context : Context F}
  {rules : List (RequestRule F)}

theorem check_back (h : Run.Back (CallsAlike M P B) x) : Run.Back (CallsAlike M P B) (check x) :=
  h.bind fun _ => .lift

theorem mark_back (index : Option Nat) : Run.Back (CallsAlike M P B) (mark (F := F) index) := by
  intro s a s' hrun hok
  cases hrun
  cases index <;> exact hok

theorem callFunction_back (name : BillingFunction) (args : List (ExpressionNode F))
    (values : List (Datum F)) :
    Run.Back (CallsAlike M P B) (callFunction B context name args values) := by
  intro s a s' hrun hok
  unfold callFunction at hrun
  split at hrun
  · cases hrun
  cases hrun
  exact fun call hcall => hok call (List.mem_cons_of_mem _ hcall)

mutual

/-- An evaluation takes no recorded call back. -/
theorem evaluate_back (path : List Nat) :
    ∀ node : ExpressionNode F, Run.Back (CallsAlike M P B) (evaluate B context rules path node)
  | .literal _ => check_back .pure
  | .variable _ => check_back .lift
  | .conditional condition yes no => by
    refine check_back ((evaluate_back _ condition).bind fun _ => Run.Back.bind .lift fun holds =>
      ?_)
    cases holds with
    | true => exact (mark_back _).bind fun _ => evaluate_back _ yes
    | false => exact evaluate_back _ no
  | .unary _ operand => check_back ((evaluate_back _ operand).bind fun _ => .lift)
  | .binary operator left right => by
    have hl := evaluate_back (path ++ [0]) left
    have hr := evaluate_back (path ++ [1]) right
    cases operator with
    | and =>
      refine check_back (hl.bind fun _ => Run.Back.bind .lift fun holds => ?_)
      cases holds with
      | true => exact hr.bind fun _ => .lift
      | false => exact .pure
    | or =>
      refine check_back (hl.bind fun _ => Run.Back.bind .lift fun holds => ?_)
      cases holds with
      | true => exact .pure
      | false => exact hr.bind fun _ => .lift
    | _ => exact check_back (hl.bind fun _ => hr.bind fun _ => .lift)
  | .call name args =>
    check_back ((evaluateArgs_back path 0 args).bind fun values =>
      callFunction_back name args values)

theorem evaluateArgs_back (path : List Nat) (i : Nat) :
    ∀ nodes : List (ExpressionNode F), Run.Back (CallsAlike M P B)
      (evaluateArgs B context rules path i nodes)
  | [] => .pure
  | node :: rest =>
    (evaluate_back _ node).bind fun _ => (evaluateArgs_back path (i + 1) rest).bind fun _ => .pure

end

end Back

/-! ### The steps -/

variable {name : BillingFunction} {condition yes no : ExpressionNode F} {l r : Node F}

section Steps

/-- An evaluation of the editor and the run of the backend that it is compared with. -/
structure Sides (F : Type) where
  M : Machine F
  P : Platform F
  B : Browser F
  context : Context F
  params : TokenParams F
  request : RequestInput F
  imageCount : Int
  rules : List (RequestRule F)
  multipliers : List F

/-- The two evaluations agree on the operators, the platform and the context. -/
structure Sides.Shared (S : Sides F) : Prop where
  operators : SharesOperators S.M S.B
  platform : SharesPlatform S.B S.P
  context : SameContext S.B S.P S.context S.params S.request

abbrev Sides.handler (S : Sides F) : Handler F (TraceResult F × List Nat) :=
  asWritten S.M S.P S.params S.request S.imageCount

/-- A run of the editor is matched by one of the backend. -/
abbrev Sides.Matched {α β : Type} (S : Sides F) (Q : α → β → Prop) (x : Run (BillingRuntime F) α)
    (y : Run (TraceResult F × List Nat) β) : Prop :=
  Run.RefinesTo (CallsAlike S.M S.P S.B) (StateRel S.multipliers) Q x y

/-- The editor's evaluation of a node is matched by the backend's of a tree. -/
abbrev Sides.Refines (S : Sides F) (Q : Datum F → Value F → Prop) (path : List Nat)
    (node : ExpressionNode F) (n : Nat) (tree : Node F) : Prop :=
  S.Matched Q (evaluate S.B S.context S.rules path node) (eval S.M S.handler n tree)

variable {S : Sides F} {args : List (ExpressionNode F)}

/-- Calls with related arguments agree. -/
theorem call_refines (hS : S.Shared) {values : List (Datum F)} {vs : List (Value F)}
    (hargs : ArgsRel S.M name.host.params args values vs) :
    S.Matched (Rel exact)
      (check (callFunction S.B S.context name args values))
      (S.handler.apply S.M (.func name.host) vs) := by
  intro s t hst d s' hrun hok
  obtain ⟨d', s₁, hcall, hcheck⟩ := Run.bind_eq_some.mp hrun
  obtain ⟨hchecked, rfl⟩ := Run.lift_eq_some.mp hcheck
  obtain rfl := checked_some hchecked
  unfold callFunction at hcall
  split at hcall
  · cases hcall
  next effect heffect =>
  cases hcall
  have halike : Alike S.M S.P S.B ⟨name, args, values⟩ := hok _ (List.mem_cons_self ..)
  obtain ⟨passed, answer, hmatch⟩ := callEffect_matches hS.platform hS.context hargs halike heffect
  refine ⟨.data effect.result, (answer.write t.1, t.2), ?_, .refl hchecked, ?_⟩
  · have hhost : S.handler.call name.host passed t =
      (some effect.result, (answer.write t.1, t.2)) := by
      simp [asWritten, hostCall, hmatch.answers, hmatch.result]
    simp only [Handler.apply, hmatch.handed]
    exact Run.bind_of_some hhost
  · obtain ⟨h1, h2, h3, h4⟩ := hmatch.write S.multipliers s t hst
    exact ⟨h1, h2, h3, h4⟩

variable {path : List Nat} {n : Nat}

/-- Conditionals whose parts agree do too. -/
theorem conditional_refines {cond exp1 exp2 : Node F}
    (hplaced : Placed S.rules path n (.conditional condition yes no))
    (hrule : isRequestRule (.conditional true cond exp1 exp2) =
      isRequestRule (toNode (.conditional condition yes no)))
    (hcount : ruleCount cond = ruleCount (toNode condition) ∧
      ruleCount exp1 = ruleCount (toNode yes) ∧ ruleCount exp2 = ruleCount (toNode no))
    (hc : S.Refines (Rel exact) (path ++ [0]) condition n cond)
    (hy : S.Refines (Rel exact) (path ++ [1]) yes (n + ruleCount cond) exp1)
    (hn : S.Refines (Rel exact) (path ++ [2]) no (n + ruleCount cond + ruleCount exp1) exp2) :
    S.Refines (Rel exact) path (.conditional condition yes no) n
      (.conditional true cond exp1 exp2) := by
  -- the number under which the backend reports the rule is its index for the editor
  have hindex : S.rules.findIdx? (·.node == path) =
      if isRequestRule (.conditional true cond exp1 exp2) then
        some (n + ruleCount cond + ruleCount exp1 + ruleCount exp2) else none := by
    rw [hplaced.index, hrule, ← ruleOf_isSome, requestRules_length, requestRules_length,
      requestRules_length, hcount.1, hcount.2.1, hcount.2.2]
    cases ruleOf path (.conditional condition yes no) <;> rfl
  refine check_refines (hc.bind (fun a => ?_) fun a v hrel => ?_)
  · refine Run.Back.bind .lift fun holds => ?_
    cases holds with
    | true => exact (mark_back _).bind fun _ => evaluate_back _ yes
    | false => exact evaluate_back _ no
  · cases a with
    | bool b =>
      cases hrel.eq nofun
      have hcondition : S.handler.condition (ruleFunction exp1 exp2) (.data (.bool b)) =
        some b := by
        simp [asWritten, Machine.pass_of_hasType (M := S.M) (v := .data (.bool b)) (t := .bool) rfl,
          Value.asBool]
      cases b with
      | true =>
        by_cases hr : isRequestRule (.conditional true cond exp1 exp2) = true
        · rw [if_pos hr] at hindex ⊢
          rw [hindex]
          exact fun s t hst d s' hrun hok => hy _ _ (mark_rel _ hst) d s' hrun hok
        · rw [if_neg hr] at hindex ⊢
          rw [hindex]
          exact fun s t hst d s' hrun hok => hy s t hst d s' hrun hok
      | false =>
        split_ifs with hr
        · exact hn
        · exact hn
    | _ => exact Run.RefinesTo.fail

/-! ### The tree -/

variable {node left right : ExpressionNode F} {operator : Operator}

/-- An evaluation of the editor is matched by the backend's tree, and by the form the tree takes as
    an argument for a `float64`. -/
structure Refined (M : Machine F) (P : Platform F) (B : Browser F) (context : Context F)
    (params : TokenParams F) (request : RequestInput F) (imageCount : Int)
    (rules : List (RequestRule F)) (multipliers : List F) (exact : Bool) (path : List Nat) (n : Nat)
    (node : ExpressionNode F) : Prop where
  plain : Run.RefinesTo (CallsAlike M P B) (StateRel multipliers) (Rel exact)
    (evaluate B context rules path node)
    (eval M (asWritten M P params request imageCount) n (convert M (readNode node)))
  literals : Run.RefinesTo (CallsAlike M P B) (StateRel multipliers)
    (fun d v => Rel false d v ∧ (convertible node = true → ∃ f, v = .data (.float f)))
    (evaluate B context rules path node)
    (eval M (asWritten M P params request imageCount) n (floatLiterals (convert M (readNode node))))

abbrev Sides.Refined (S : Sides F) (exact : Bool) (path : List Nat) (n : Nat)
    (node : ExpressionNode F) :
    Prop :=
  Editor.Refined S.M S.P S.B S.context S.params S.request S.imageCount S.rules S.multipliers
    exact path n node

theorem Refined.of_plain (h : S.Refines (Rel exact) path node n (convert S.M (readNode node)))
    (hsame : floatLiterals (convert S.M (readNode node)) = convert S.M (readNode node))
    (hconv : convertible node = false) : S.Refined exact path n node where
  plain := h
  literals := by
    rw [hsame, hconv]
    exact h.mono fun _ _ hrel => ⟨hrel.weaken, nofun⟩

/-- Literals agree. -/
theorem literal_refined (value : Literal F) : S.Refined exact path n (.literal value) := by
  have hplain : ∀ d : Datum F, S.Matched (Rel exact)
      (check (pure d))
      (pure (.data d) : Run (TraceResult F × List Nat) (Value F)) := by
    intro d
    rw [← Run.lift_some, check_lift]
    exact Run.RefinesTo.lift fun a ha =>
      let ⟨hd, hc⟩ := bind_checked ha
      ⟨.data d, rfl, by cases hd; exact .refl hc⟩
  cases value with
  | integer i =>
    refine ⟨hplain (.int i), ?_⟩
    show Run.RefinesTo _ _ _ (check (pure (.int i))) (pure (Value.data (.float (Float64.ofInt i))))
    rw [← Run.lift_some, check_lift]
    refine Run.RefinesTo.lift fun a ha => ?_
    obtain ⟨hd, hc⟩ := bind_checked ha
    cases hd
    exact ⟨_, rfl, ⟨hc, _, rfl, nofun, .inr ⟨i, rfl, rfl⟩⟩, fun _ => ⟨_, rfl⟩⟩
  | null => exact .of_plain (hplain .nil) rfl rfl
  | boolean b => exact .of_plain (hplain (.bool b)) rfl rfl
  | decimal f => exact .of_plain (hplain (.float f)) rfl rfl
  | string s => exact .of_plain (hplain (.str s)) rfl rfl

/-- A token variable has one value for every image count. -/
theorem variableValue_token {v : Variable} (h : v ≠ .imageCount) (m n : Int) :
    variableValue S.params m v = variableValue S.params n v := by
  cases v with
  | imageCount => exact absurd rfl h
  | _ => rfl

theorem readVariable_eq (hS : S.Shared) {name : Variable}
    (hcount : name = .imageCount → S.context.imageCount.getD 1 = S.imageCount) {x : F}
    (h : readVariable S.context name = some x) : variableValue S.params S.imageCount name = x := by
  by_cases himage : name = .imageCount
  · subst himage
    simp only [readVariable, hcount] at h
    split_ifs at h
    exact Option.some.inj h
  · have htoken : readVariable S.context name = (S.context.tokens name).filter Float64.nonneg := by
      cases name with
      | imageCount => exact absurd rfl himage
      | _ => rfl
    rw [htoken, hS.context.tokens name himage] at h
    rw [variableValue_token himage]
    exact Option.some.inj (Option.filter_eq_some_iff.mp h).1

/-- Variables agree if both sides read the same image count. -/
theorem variable_refined (hS : S.Shared) {name : Variable}
    (hcount : name = .imageCount → S.context.imageCount.getD 1 = S.imageCount) :
    S.Refined exact path n (.variable name) := by
  refine .of_plain ?_ rfl rfl
  show Run.RefinesTo _ _ _ (check (Run.lift ((readVariable S.context name).map .float)))
    (Run.lift (S.handler.identifier (variableName name)))
  rw [check_lift, identifier_variable]
  refine Run.RefinesTo.lift fun d hd => ?_
  obtain ⟨hread, hc⟩ := bind_checked hd
  obtain ⟨x, hx, rfl⟩ := Option.map_eq_some_iff.mp hread
  refine ⟨_, rfl, ?_⟩
  show Rel exact (.float x) (.data (.float (variableValue S.params S.imageCount name)))
  rw [readVariable_eq hS hcount hx]
  exact .refl hc

/-- Unary operators agree. -/
theorem unary_refined (hS : S.Shared) {operator : UnaryOp} {operand : ExpressionNode F}
    (h : S.Refined exact (path ++ [0]) n operand) :
    S.Refined exact path n (.unary operator operand) where
  plain := by
    show Run.RefinesTo _ _ _ (check (evaluate S.B S.context S.rules (path ++ [0]) operand >>=
      fun a =>
      Run.lift (unary operator a))) _
    rw [check_bind]
    refine h.plain.bind (fun _ => check_back .lift) fun a v hrel => ?_
    rw [check_lift]
    refine Run.RefinesTo.lift fun d hd => ?_
    obtain ⟨hop, hc⟩ := bind_checked hd
    obtain ⟨-, d', -, -, hM', hrel'⟩ := unary_rel hS.operators hrel hop hc
    exact ⟨.data d', by rw [hM']; rfl, hrel'⟩
  literals := by
    show Run.RefinesTo _ _ _ (check (evaluate S.B S.context S.rules (path ++ [0]) operand >>=
      fun a =>
      Run.lift (unary operator a))) _
    rw [check_bind]
    refine h.literals.bind (fun _ => check_back .lift) fun a v hrel => ?_
    rw [check_lift]
    refine Run.RefinesTo.lift fun d hd => ?_
    obtain ⟨hop, hc⟩ := bind_checked hd
    obtain ⟨a', d', rfl, hop', hM', hrel'⟩ := unary_rel hS.operators hrel.1 hop hc
    refine ⟨.data d', by rw [hM']; rfl, hrel', fun hconv => ?_⟩
    -- an operator on a float gives a float
    obtain ⟨f, hf⟩ := hrel.2 hconv
    cases hf
    cases operator with
    | not => cases hop'
    | neg | plus => cases hop'; exact ⟨_, rfl⟩

/-- The operators that evaluate both operands. -/
def isStrict : Operator → Bool
  | .or | .and => false
  | _ => true

theorem evaluate_strict (h : isStrict operator = true) (path : List Nat)
    (left right : ExpressionNode F) :
    evaluate S.B S.context S.rules path (.binary operator left right) =
      check (evaluate S.B S.context S.rules (path ++ [0]) left >>= fun l =>
        evaluate S.B S.context S.rules (path ++ [1]) right >>= fun r =>
          Run.lift (binary S.B operator l r)) := by
  cases operator <;> first | rfl | cases h

theorem eval_strict {H : Handler F σ} (h : isStrict operator = true) (n : Nat)
    (left right : Node F) :
    eval S.M H n (.binary operator.toBinaryOp left right) =
      (eval S.M H n left >>= fun l => eval S.M H (n + ruleCount left) right >>= fun r =>
        Run.lift ((S.M.binary operator.toBinaryOp l r).map .data)) := by
  cases operator <;> first | rfl | cases h

/-- A strict operator, with operands related in one of the two ways. -/
theorem strict_refines (hS : S.Shared) (hstrict : isStrict operator = true)
    (hmod : exact = false → operator ≠ .mod) {Q' : Datum F → Value F → Prop}
    (hQ : ∀ d v, Q d v → Rel exact d v) (hQ' : ∀ d v, Q' d v → Rel exact d v)
    (hl : S.Refines Q (path ++ [0]) left n l)
    (hr : S.Refines Q' (path ++ [1]) right (n + ruleCount l) r) :
    S.Refines (fun d v => Rel exact d v ∧ ∃ a b a' b' d', Q a (.data a') ∧ Q' b (.data b') ∧
        v = .data d' ∧ binary S.B operator a' b' = some d')
      path (.binary operator left right) n (.binary operator.toBinaryOp l r) := by
  unfold Sides.Refines
  rw [evaluate_strict hstrict, eval_strict hstrict, check_bind]
  refine hl.bind (fun _ => check_back ((evaluate_back _ right).bind fun _ => .lift)) fun a v ha =>
    ?_
  rw [check_bind]
  refine hr.bind (fun _ => check_back .lift) fun b w hb => ?_
  rw [check_lift]
  refine Run.RefinesTo.lift fun d hd => ?_
  obtain ⟨hop, hc⟩ := bind_checked hd
  obtain ⟨a', b', d', rfl, rfl, hop', hM', hrel⟩ := binary_rel hS.operators hmod (hQ a v ha)
    (hQ' b w hb) hop hc
  exact ⟨.data d', by rw [hM']; rfl, hrel, a, b, a', b', d', ha, hb, rfl, hop'⟩

/-- The right side of `&&` and `||`: the editor also checks that it is a boolean. -/
theorem boolean_refines
    {y : Run (TraceResult F × List Nat) (Value F)} (h : S.Matched (Rel exact) x y) :
    S.Matched (Rel exact) (x >>= fun r => Run.lift ((boolean r).map .bool)) y :=
  h.test fun a v a' hrel ha => by
    cases a with
    | bool b => cases ha; exact hrel
    | _ => cases ha

/-- The operators that skip their right side agree. -/
theorem logical_refines (hop : isStrict operator = false)
    (hl : S.Refines (Rel exact) (path ++ [0]) left n l)
    (hr : S.Refines (Rel exact) (path ++ [1]) right (n + ruleCount l) r) :
    S.Refines (Rel exact) path (.binary operator left right) n
      (.binary operator.toBinaryOp l r) := by
  have hback : Run.Back (CallsAlike S.M S.P S.B)
    (evaluate S.B S.context S.rules (path ++ [1]) right >>= fun r =>
      Run.lift ((boolean r).map (Datum.bool (F := F)))) :=
    (evaluate_back _ right).bind fun _ => .lift
  cases operator with
  | and =>
    refine check_refines (hl.bind (fun a => Run.Back.bind .lift fun holds => ?_) fun a v hrel => ?_)
    · cases holds with
      | true => exact hback
      | false => exact .pure
    · cases a with
      | bool b =>
        cases hrel.eq nofun
        cases b with
        | true => exact boolean_refines hr
        | false => exact Run.RefinesTo.pure (.refl rfl)
      | _ => exact Run.RefinesTo.fail
  | or =>
    refine check_refines (hl.bind (fun a => Run.Back.bind .lift fun holds => ?_) fun a v hrel => ?_)
    · cases holds with
      | true => exact .pure
      | false => exact hback
    · cases a with
      | bool b =>
        cases hrel.eq nofun
        cases b with
        | true => exact Run.RefinesTo.pure (.refl rfl)
        | false => exact boolean_refines hr
      | _ => exact Run.RefinesTo.fail
  | _ => cases hop

theorem ruleCount_read (M : Machine F) (node : ExpressionNode F) :
    ruleCount (convert M (readNode node)) = ruleCount (toNode node) := by
  rw [ruleCount_convert, readNode, ruleCount_floatRules]

theorem arithmetic_refined (hS : S.Shared) (ints : Int → Int → Int) (floats : F → F → F)
    (hstrict : isStrict operator = true) (hmod : operator ≠ .mod)
    (hop : ∀ {a b d : Datum F}, (∃ f, a = .float f) ∨ (∃ f, b = .float f) →
      binary S.B operator a b = some d → arithmetic ints floats a b = some d)
    (hnode : floatLiterals (convert S.M (readNode (.binary operator left right))) =
      .binary operator.toBinaryOp (floatLiterals (convert S.M (readNode left)))
        (floatLiterals (convert S.M (readNode right))))
    (hconv : convertible (.binary operator left right) = (convertible left || convertible right))
    (hl : S.Refined exact (path ++ [0]) n
      left)
    (hr : S.Refined exact (path ++ [1]) (n + ruleCount (toNode left)) right) :
    S.Refined exact path n (.binary operator left right) where
  plain := by
    have hr' := hr.plain
    rw [← ruleCount_read] at hr'
    exact (strict_refines hS hstrict (fun _ => hmod) (fun _ _ h => h) (fun _ _ h => h) hl.plain
      hr').mono fun _ _ h => h.1
  literals := by
    have hr' := hr.literals
    rw [← ruleCount_read, ← ruleCount_floatLiterals] at hr'
    rw [hnode, hconv]
    refine (strict_refines hS hstrict (fun _ => hmod) (fun _ _ h => h.1)
      (fun _ _ h => h.1) hl.literals hr').mono ?_
    rintro d v ⟨hrel, a, b, a', b', d', ha, hb, rfl, hop'⟩
    refine ⟨hrel, fun hconv => ?_⟩
    have hfloat : (∃ f, a' = .float f) ∨ ∃ f, b' = .float f := by
      rcases Bool.or_eq_true _ _ ▸ hconv with h | h
      · obtain ⟨f, hf⟩ := ha.2 h
        cases hf
        exact .inl ⟨f, rfl⟩
      · obtain ⟨f, hf⟩ := hb.2 h
        cases hf
        exact .inr ⟨f, rfl⟩
    obtain ⟨f, rfl⟩ := arithmetic_float hfloat (hop hfloat hop')
    exact ⟨f, rfl⟩

/-- Binary operators agree; `%` needs exact values. -/
theorem binary_refined (hS : S.Shared) (hmod : exact = false → operator ≠ .mod)
    (hl : S.Refined exact (path ++ [0]) n
      left)
    (hr : S.Refined exact (path ++ [1]) (n + ruleCount (toNode left)) right) :
    S.Refined exact path n (.binary operator left right) := by
  have hr' := hr.plain
  rw [← ruleCount_read S.M] at hr'
  cases operator with
  | add =>
    refine arithmetic_refined hS (· + ·) Arithmetic.add rfl nofun ?_ rfl rfl hl hr
    intro a b d hfloat h
    rw [binary_add] at h
    · exact h
    · rintro ⟨x, y, rfl, rfl⟩
      obtain ⟨f, hf⟩ | ⟨f, hf⟩ := hfloat <;> cases hf
  | sub =>
    exact arithmetic_refined hS (· - ·) Arithmetic.sub rfl nofun (fun _ h => h) rfl rfl hl hr
  | mul =>
    exact arithmetic_refined hS (· * ·) Float64.mul rfl nofun (fun _ h => h) rfl rfl hl hr
  | and | or => exact .of_plain (logical_refines rfl hl.plain hr') rfl rfl
  | _ =>
    exact .of_plain ((strict_refines hS rfl hmod (fun _ _ h => h) (fun _ _ h => h) hl.plain
      hr').mono fun _ _ h => h.1) rfl rfl

/-- A number literal of a mixed rule, which the backend reads as a float. -/
theorem floatNumber_refines (hnumber : (literalNumber node).isSome = true) :
    S.Refines (Rel false) path node n (convert S.M (floatNumber (toNode node))) := by
  cases node with
  | literal value =>
    have h : S.Refined false path n (.literal value) := literal_refined value
    cases value with
    | integer i => exact h.literals.mono fun _ _ hrel => hrel.1
    | decimal f => exact h.plain
    | _ => cases hnumber
  | _ => cases hnumber

theorem ruleCount_floatNumber (h : (literalNumber node).isSome = true) :
    ruleCount (convert S.M (floatNumber (toNode node))) = ruleCount (toNode node) := by
  cases node with
  | literal value => cases value <;> rfl
  | _ => cases h

theorem rule_numbers (h : isRequestRule (toNode (.conditional condition yes no)) = true) :
    (literalNumber yes).isSome = true ∧ (literalNumber no).isSome = true := by
  obtain ⟨-, -, h1, h2⟩ := isRequestRule_iff.mp h
  rw [requestRuleNumber_toNode_eq] at h1 h2
  refine ⟨h1, ?_⟩
  cases hno : literalNumber no with
  | none => rw [hno] at h2; cases h2
  | some x => rfl

/-- Conditionals and rules agree. -/
theorem conditional_refined (hplaced : Placed S.rules path n (.conditional condition yes no))
    (hkind : exact = true → isRequestRule (toNode (.conditional condition yes no)) = true →
      sameKind (toNode yes) (toNode no) = true)
    (hc : S.Refined exact (path ++ [0]) n condition)
    (hy : S.Refined exact (path ++ [1]) (n + ruleCount (toNode condition)) yes)
    (hn : S.Refined exact (path ++ [2]) (n + ruleCount (toNode condition) + ruleCount (toNode yes))
      no) :
    S.Refined exact path n (.conditional condition yes no) := by
  have hrule := isRequestRule_floatRules true (toNode condition) (toNode yes) (toNode no)
  have hcount := ruleCount_read S.M condition
  obtain ⟨hisRule, hmixed, hread⟩ | ⟨-, hread⟩ :=
      floatRules_conditional true (toNode condition) (toNode yes) (toNode no)
  · -- a mixed rule: both numbers are read as floats
    have hexact : exact = false := by
      cases exact with
      | false => rfl
      | true => exact absurd (hkind rfl hisRule) (by rw [hmixed]; decide)
    subst hexact
    obtain ⟨hyes, hno⟩ := rule_numbers hisRule
    have hnode : convert S.M (readNode (.conditional condition yes no)) =
        .conditional true (convert S.M (readNode condition))
          (convert S.M (floatNumber (toNode yes)))
          (convert S.M (floatNumber (toNode no))) := by
      rw [readNode, toNode, hread]
      rfl
    rw [hread, ← isRequestRule_convert] at hrule
    refine .of_plain ?_ (by rw [hnode]; rfl) rfl
    rw [hnode]
    exact conditional_refines hplaced hrule
      ⟨hcount, ruleCount_floatNumber hyes, ruleCount_floatNumber hno⟩ hc.plain
      (floatNumber_refines hyes) (floatNumber_refines hno)
  · have hnode : convert S.M (readNode (.conditional condition yes no)) =
        .conditional true (convert S.M (readNode condition)) (convert S.M (readNode yes))
          (convert S.M (readNode no)) := by
      rw [readNode, toNode, hread]
      rfl
    rw [hread, ← isRequestRule_convert] at hrule
    refine .of_plain ?_ (by rw [hnode]; rfl) rfl
    rw [hnode]
    refine conditional_refines hplaced hrule ⟨hcount, ruleCount_read S.M yes,
      ruleCount_read S.M no⟩ hc.plain ?_ ?_
    · rw [hcount]
      exact hy.plain
    · rw [hcount, ruleCount_read]
      exact hn.plain

/-- Calls agree. -/
theorem call_refined (hS : S.Shared) (h : S.Matched (ArgsRel S.M name.host.params args)
      (evaluateArgs S.B S.context S.rules path 0 args)
      (evalArgs S.M S.handler n (convertArgs S.M name.host.params
        (floatRulesArgs (toNodes args))))) :
    S.Refined exact path n (.call name args) := by
  have hnode : convert S.M (readNode (.call name args)) = .call (.identifier name.name)
        (convertArgs S.M name.host.params (floatRulesArgs (toNodes args))) := by
    rw [← calleeParams_function]
    rfl
  refine .of_plain ?_ (by rw [hnode]; rfl) rfl
  rw [hnode]
  show Run.RefinesTo _ _ _ (check (evaluateArgs S.B S.context S.rules path 0 args >>= fun values =>
      callFunction S.B S.context name args values))
    (evalArgs S.M S.handler n _ >>= fun vs =>
      Run.lift (S.handler.identifier name.name) >>= fun f => S.handler.apply S.M f vs)
  rw [check_bind, identifier_function]
  exact h.bind (fun values => check_back (callFunction_back name args values))
    fun values vs hargs =>
    call_refines hS hargs

/-- An argument, converted for its parameter. -/
theorem arg_refines {arg : ExpressionNode F} (tys : List Ty) (h : S.Refined exact path n arg) :
    S.Refines (ArgRel S.M tys.head? arg) path arg n (convertArg S.M tys (readNode arg)) := by
  unfold convertArg
  split
  · exact h.literals.mono fun _ _ hrel => ⟨hrel.1, fun _ _ hconv => hrel.2 hconv⟩
  · next hother =>
    exact h.plain.mono fun _ _ hrel =>
      ⟨hrel.weaken, fun hfloat hint => absurd ⟨hfloat, hint⟩ hother⟩

end Steps

section Tree

variable {S : Sides F}

theorem ruleCount_convertArg (M : Machine F) (tys : List Ty) (node : ExpressionNode F) :
    ruleCount (convertArg M tys (readNode node)) = ruleCount (toNode node) := by
  unfold convertArg
  split
  · rw [ruleCount_floatLiterals, ruleCount_read]
  · exact ruleCount_read M node

mutual

/-- **A successful evaluation of the editor is matched by the backend's tree.** -/
theorem evaluate_refined (hS : S.Shared) (exact : Bool) :
    ∀ (node : ExpressionNode F) (path : List Nat) (n : Nat), Placed S.rules path n node →
      Suits exact (S.context.imageCount.getD 1 = S.imageCount) node →
      S.Refined exact path n node
  | .literal value, _, _, _, _ => literal_refined value
  | .variable _, _, _, _, hsuits => variable_refined hS hsuits
  | .unary _ operand, _, n, hplaced, hsuits =>
    unary_refined hS (evaluate_refined hS exact operand _ n hplaced.onOperand hsuits)
  | .binary _ left right, path, n, hplaced, hsuits => by
    have hright := hplaced.onOperands.tail.head
    rw [requestRules_length] at hright
    exact binary_refined hS hsuits.1
      (evaluate_refined hS exact left _ n hplaced.onOperands.head hsuits.2.1)
      (evaluate_refined hS exact right _ _ hright hsuits.2.2)
  | .conditional condition yes no, path, n, hplaced, hsuits => by
    have hyes := hplaced.onParts.tail.head
    have hno := hplaced.onParts.tail.tail.head
    rw [requestRules_length] at hyes
    rw [requestRules_length, requestRules_length] at hno
    exact conditional_refined hplaced hsuits.1
      (evaluate_refined hS exact condition _ n hplaced.onParts.head hsuits.2.1)
      (evaluate_refined hS exact yes _ _ hyes hsuits.2.2.1)
      (evaluate_refined hS exact no _ _ hno hsuits.2.2.2)
  | .call name args, path, n, hplaced, hsuits =>
    call_refined hS (evaluateArgs_refines hS exact args path 0 n name.host.params hplaced.onArgs
      hsuits)

theorem evaluateArgs_refines (hS : S.Shared) (exact : Bool) :
    ∀ (args : List (ExpressionNode F)) (path : List Nat) (i n : Nat) (tys : List Ty),
      PlacedArgs S.rules path i n args →
      SuitsAll exact (S.context.imageCount.getD 1 = S.imageCount) args →
      S.Matched (ArgsRel S.M tys args)
        (evaluateArgs S.B S.context S.rules path i args)
        (evalArgs S.M S.handler n (convertArgs S.M tys (floatRulesArgs (toNodes args))))
  | [], _, _, _, _, _, _ => by
    rw [toNodes, floatRulesArgs]
    exact Run.RefinesTo.pure trivial
  | arg :: rest, path, i, n, tys, hplaced, hsuits => by
    have hhead := arg_refines tys (evaluate_refined hS exact arg (path ++
      [i]) n hplaced.head hsuits.1)
    have htail := hplaced.tail
    rw [requestRules_length, ← ruleCount_convertArg] at htail
    have hrest := evaluateArgs_refines hS exact rest path (i + 1) _ tys.tail htail hsuits.2
    rw [toNodes, floatRulesArgs]
    refine hhead.bind (fun _ => (evaluateArgs_back path (i + 1) rest).bind fun _ => .pure)
      fun d v harg => ?_
    exact hrest.bind (fun _ => .pure) fun ds vs hargs => Run.RefinesTo.pure ⟨harg, hargs⟩

end

end Tree

end TokenGateway.Editor
