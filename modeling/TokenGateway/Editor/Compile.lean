import TokenGateway.Editor.Syntax
import TokenGateway.Expression.Fixed

namespace TokenGateway.Editor

open Expression List

/-!
# Request rules and fixed prices in the editor

`compileBillingExpression` (`parser.ts`) collects the request rules of a tree and, if the tree calls
`fixed`, checks where it does.  The rules are kept with the node they stand for, and the check finds
a factor's rule by comparing nodes as objects.  Here the identity of a node is its place in the
tree.

* `requestRules` — the rules, in postorder;
* `validateFixedPricingTree` — the check;
* `Placed` — a node of the tree: looking it up finds the rule that this node is, and no other;
* `fixedPricing_agrees` — the check accepts the trees that the backend's check accepts.

The limits on the length, the number of tokens and the depth of an expression hold for every
expression, with or without `fixed`, and are not part of the check.
-/

variable {F : Type}

/-! ### Places -/

/-- An entry of `requestRules`.  The text `cond` is the source of the condition. -/
structure RequestRule (F : Type) where
  /-- The place of the conditional: the children taken from the root. -/
  node : List Nat
  condition : ExpressionNode F
  multiplier : F

/-- The rules stand below a place. -/
def Below (path : List Nat) (rules : List (RequestRule F)) : Prop :=
  ∀ rule ∈ rules, path <+: rule.node

/-- No rule stands at a place or below it. -/
def Outside (path : List Nat) (rules : List (RequestRule F)) : Prop :=
  ∀ rule ∈ rules, ¬ path <+: rule.node

variable {path : List Nat} {xs ys : List (RequestRule F)}

theorem Below.append (hx : Below path xs) (hy : Below path ys) : Below path (xs ++ ys) :=
  forall_mem_append.mpr ⟨hx, hy⟩

variable {i : Nat}

theorem Below.of_child (h : Below (path ++ [i]) xs) : Below path xs :=
  fun rule hr => (prefix_append path [i]).trans (h rule hr)

theorem Outside.append (hx : Outside path xs) (hy : Outside path ys) : Outside path (xs ++ ys) :=
  forall_mem_append.mpr ⟨hx, hy⟩

theorem Outside.child (h : Outside path xs) (i : Nat) : Outside (path ++ [i]) xs :=
  fun rule hr hp => h rule hr ((prefix_append path [i]).trans hp)

variable {j : Nat}

theorem Below.outside (h : Below (path ++ [i]) xs) (hij : i ≠ j) : Outside (path ++ [j]) xs := by
  intro rule hr hp
  have hi := h rule hr
  have hlen : (path ++ [i]).length = (path ++ [j]).length := by simp
  have heq := (prefix_of_prefix_length_le hi hp (Nat.le_of_eq hlen)).eq_of_length hlen
  rw [append_cancel_left_eq] at heq
  exact hij (singleton_inj.mp heq)

def Absent (path : List Nat) (rules : List (RequestRule F)) : Prop :=
  ∀ rule ∈ rules, rule.node ≠ path

theorem Absent.nil : Absent (F := F) path [] := nofun

theorem Absent.append (hx : Absent path xs) (hy : Absent path ys) : Absent path (xs ++ ys) :=
  forall_mem_append.mpr ⟨hx, hy⟩

theorem Outside.absent (h : Outside path xs) : Absent path xs :=
  fun rule hr heq => h rule hr (heq ▸ prefix_rfl)

theorem Below.absent (h : Below (path ++ [i]) xs) : Absent path xs := by
  intro rule hr heq
  have hlen := (h rule hr).length_le
  rw [heq, length_append, length_singleton] at hlen
  omega

variable {rules : List (RequestRule F)}

theorem find_absent (h : Absent path rules) : rules.find? (·.node == path) = none := by
  rw [find?_eq_none]
  intro rule hr heq
  exact h rule hr (eq_of_beq heq)

theorem findIdx_absent (h : Absent path rules) : rules.findIdx? (·.node == path) = none := by
  rw [findIdx?_eq_none_iff]
  intro rule hr
  exact beq_eq_false_iff_ne.mpr (h rule hr)

/-! ### Pricing functions and probes -/

variable (node : ExpressionNode F)

def containsPricing : Bool := calls isPricing node

theorem containsPricing_toNode : containsPricingMarker (toNode node) = containsPricing node :=
  mentions_toNode nameTest_pricing node

theorem usesRequestProbe_toNode : usesRequestProbe (toNode node) = calls isProbe node :=
  mentions_toNode nameTest_probe node

variable [Float64 F]

/-! ### Request rules -/

/-- The value of a number literal. -/
def literalNumber : ExpressionNode F → Option F
  | .literal value => value.number
  | _ => none

theorem requestRuleNumber_toNode_eq : requestRuleNumber (toNode node) = literalNumber node := by
  cases node with
  | literal value => exact requestRuleNumber_toNode value
  | _ => rfl

/-- The rule that a node is: `<request-probe condition> ? <number> : 1`. -/
def ruleOf (path : List Nat) : ExpressionNode F → Option (RequestRule F)
  | .conditional condition yes no =>
    match literalNumber yes, literalNumber no with
    | some multiplier, some fallback =>
      if Float64.eq fallback (Float64.ofInt 1) && calls isProbe condition then
        some ⟨path, condition, multiplier⟩
      else none
    | _, _ => none
  | _ => none

mutual

/-- The rules of a tree at a place, in postorder. -/
def requestRules (path : List Nat) : ExpressionNode F → List (RequestRule F)
  | .literal _ | .variable _ => []
  | .call _ args => requestRulesOf path 0 args
  | .unary _ operand => requestRules (path ++ [0]) operand
  | .binary _ left right => requestRules (path ++ [0]) left ++ requestRules (path ++ [1]) right
  | .conditional condition yes no =>
    requestRules (path ++ [0]) condition ++ requestRules (path ++ [1]) yes ++
      requestRules (path ++ [2]) no ++ (ruleOf path (.conditional condition yes no)).toList

/-- The rules of arguments that are the children `i`, `i + 1`, … of the node at a place. -/
def requestRulesOf (path : List Nat) (i : Nat) : List (ExpressionNode F) → List (RequestRule F)
  | [] => []
  | node :: rest => requestRules (path ++ [i]) node ++ requestRulesOf path (i + 1) rest

end

/-! ### The check -/

inductive DiagnosticCode where
  | malformed | unsupported | missingContext | type | number | limit
  deriving DecidableEq

/-- `ExpressionDiagnostic`; a position is given by the node that starts there. -/
structure ExpressionDiagnostic where
  code : DiagnosticCode
  detail : String
  position : Option (List Nat)
  deriving DecidableEq

/-- The error of the check, at the node it looked at. -/
def fixedPricingError (path : List Nat) : ExpressionDiagnostic where
  code := .type
  detail := "Use tier(name, fixed(amount)) with a finite, non-negative numeric literal; combine " ++
    "pricing branches only with conditions and request multipliers."
  position := some path

/-- A factor that may stand next to a price. -/
def isPriceFactor (rules : List (RequestRule F)) (path : List Nat) :
    ExpressionNode F → Bool
  | .variable .imageCount => true
  | _ =>
    match rules.find? (·.node == path) with
    | some rule => Float64.nonneg rule.multiplier && !containsPricing rule.condition
    | none => false

/-- A price: `fixed` of an admissible literal, or an expression without pricing functions. -/
def isPrice : ExpressionNode F → Bool
  | .call .fixed (amount :: _) =>
    (literalNumber amount).any fun value =>
      Float64.nonneg value && !Float64.isNaN (Float64.mul value million) &&
        !Float64.isInf (Float64.mul value million)
  | price => !containsPricing price

/-- A leaf: `tier` with a price. -/
def isLeaf : ExpressionNode F → Bool
  | .call .tier (name :: price :: _) => !containsPricing name && isPrice price
  | _ => false

def validateFixedPricingTree (rules : List (RequestRule F)) (path : List Nat) :
    ExpressionNode F → Except ExpressionDiagnostic Unit
  | .conditional condition yes no =>
    if containsPricing condition then .error (fixedPricingError path)
    else validateFixedPricingTree rules (path ++ [1]) yes >>= fun _ =>
      validateFixedPricingTree rules (path ++ [2]) no
  | .binary .mul left right =>
    if isPriceFactor rules (path ++ [1]) right then
      validateFixedPricingTree rules (path ++ [0]) left
    else if isPriceFactor rules (path ++ [0]) left then
      validateFixedPricingTree rules (path ++ [1]) right
    else .error (fixedPricingError path)
  | node => if isLeaf node then .ok () else .error (fixedPricingError path)

variable (ast : ExpressionNode F)

/-- The tree calls `fixed`. -/
def usesFixed : Bool := calls (· == .fixed) ast

/-- What `compileBillingExpression` checks about `fixed`. -/
def checkFixedPricing : Except ExpressionDiagnostic Unit :=
  if usesFixed ast then validateFixedPricingTree (requestRules [] ast) [] ast else .ok ()

/-! ### Looking up a node -/

variable {node : ExpressionNode F}

theorem ruleOf_node {rule : RequestRule F} (h : ruleOf path node = some rule) :
    rule.node = path := by
  unfold ruleOf at h
  split at h
  · split at h
    · split at h
      · cases h; rfl
      · cases h
    · cases h
  · cases h

theorem ruleOf_below (path : List Nat) (node : ExpressionNode F) :
    Below path (ruleOf path node).toList := by
  intro rule h
  rw [Option.mem_toList] at h
  exact (ruleOf_node h).symm ▸ prefix_rfl

theorem ruleOf_outside (path : List Nat) (node : ExpressionNode F) (i : Nat) :
    Outside (path ++ [i]) (ruleOf path node).toList := by
  intro rule h hp
  rw [Option.mem_toList] at h
  rw [ruleOf_node h] at hp
  have hlen := hp.length_le
  rw [length_append, length_singleton] at hlen
  omega

mutual

theorem requestRules_below (path : List Nat) :
    ∀ node : ExpressionNode F, Below path (requestRules path node)
  | .literal _ | .variable _ => by intro rule h; cases h
  | .call _ args => requestRulesOf_below path 0 args
  | .unary _ operand => (requestRules_below (path ++ [0]) operand).of_child
  | .binary _ left right =>
    (requestRules_below (path ++ [0]) left).of_child.append
      (requestRules_below (path ++ [1]) right).of_child
  | .conditional condition yes no =>
    (((requestRules_below (path ++ [0]) condition).of_child.append
      (requestRules_below (path ++ [1]) yes).of_child).append
      (requestRules_below (path ++ [2]) no).of_child).append (ruleOf_below path _)

theorem requestRulesOf_below (path : List Nat) (i : Nat) :
    ∀ nodes : List (ExpressionNode F), Below path (requestRulesOf path i nodes)
  | [] => by intro rule h; cases h
  | node :: rest =>
    (requestRules_below (path ++ [i]) node).of_child.append (requestRulesOf_below path (i + 1) rest)

end

/-- The rules of later arguments are outside an earlier one. -/
theorem requestRulesOf_outside (path : List Nat) {i j : Nat} (hij : i < j) :
    ∀ nodes : List (ExpressionNode F), Outside (path ++ [i]) (requestRulesOf path j nodes)
  | [] => by intro rule h; cases h
  | node :: rest =>
    ((requestRules_below (path ++ [j]) node).outside (by omega)).append
      (requestRulesOf_outside path (by omega) rest)

theorem requestRulesOf_absent (path : List Nat) (i : Nat) :
    ∀ nodes : List (ExpressionNode F), Absent path (requestRulesOf path i nodes)
  | [] => by intro rule h; cases h
  | node :: rest =>
    (requestRules_below (path ++ [i]) node).absent.append (requestRulesOf_absent path (i + 1) rest)

/-- Between rules that stand elsewhere, a node's own rule is found. -/
theorem find_own (hx : Absent path xs) (hy : Absent path ys) :
    (xs ++ (ruleOf path node).toList ++ ys).find? (·.node == path) = ruleOf path node := by
  rw [find?_append, find?_append, find_absent hx, find_absent hy]
  cases h : ruleOf path node with
  | none => rfl
  | some rule =>
    have hnode : (rule.node == path) = true := beq_iff_eq.mpr (ruleOf_node h)
    simp [hnode]

theorem findIdx_own (hx : Absent path xs) (hy : Absent path ys) :
    (xs ++ (ruleOf path node).toList ++ ys).findIdx? (·.node == path) =
      (ruleOf path node).map fun _ => xs.length := by
  rw [findIdx?_append, findIdx?_append, findIdx_absent hx, findIdx_absent hy, Option.map_none]
  cases h : ruleOf path node with
  | none => rfl
  | some rule =>
    have hnode : (rule.node == path) = true := beq_iff_eq.mpr (ruleOf_node h)
    simp [hnode]

/-- The node stands at a place of the tree the rules were collected from, after `n` rules. -/
def Placed (rules : List (RequestRule F)) (path : List Nat) (n : Nat) (node : ExpressionNode F) :
    Prop :=
  ∃ pre post, rules = pre ++ requestRules path node ++ post ∧ pre.length = n ∧ Outside path pre ∧
    Outside path post

/-- The same for arguments that are the children `i`, `i + 1`, … of the node at a place. -/
def PlacedArgs (rules : List (RequestRule F)) (path : List Nat) (i n : Nat)
    (nodes : List (ExpressionNode F)) : Prop :=
  ∃ pre post, rules = pre ++ requestRulesOf path i nodes ++ post ∧ pre.length = n ∧
    ∀ j, i ≤ j → Outside (path ++ [j]) pre ∧ Outside (path ++ [j]) post

theorem placed_root : Placed (requestRules [] ast) [] 0 ast := ⟨[], [], by simp, rfl, nofun, nofun⟩

variable {name : BillingFunction} {args : List (ExpressionNode F)}

section Placed

variable {rules : List (RequestRule F)} {path : List Nat} {n : Nat}

theorem Placed.onOperand {operator : UnaryOp} {operand : ExpressionNode F}
    (h : Placed rules path n (.unary operator operand)) : Placed rules (path ++ [0]) n operand := by
  obtain ⟨pre, post, hrules, hlen, hpre, hpost⟩ := h
  exact ⟨pre, post, hrules, hlen, hpre.child 0, hpost.child 0⟩

variable {node : ExpressionNode F} {nodes rest : List (ExpressionNode F)}

theorem Placed.parts (h : Placed rules path n node) (own : List (RequestRule F))
    (hnode : requestRules path node = requestRulesOf path 0 nodes ++ own)
    (hown : ∀ j, Outside (path ++ [j]) own) : PlacedArgs rules path 0 n nodes := by
  obtain ⟨pre, post, hrules, hlen, hpre, hpost⟩ := h
  refine ⟨pre, own ++ post, ?_, hlen, fun j _ => ⟨hpre.child j, (hown j).append (hpost.child j)⟩⟩
  simp [hrules, hnode]

theorem PlacedArgs.head (h : PlacedArgs rules path i n (node :: rest)) :
    Placed rules (path ++ [i]) n node := by
  obtain ⟨pre, post, hrules, hlen, hout⟩ := h
  obtain ⟨hpre, hpost⟩ := hout i (Nat.le_refl i)
  have hrest := requestRulesOf_outside path (Nat.lt_succ_self i) rest
  refine ⟨pre, _, ?_, hlen, hpre, hrest.append hpost⟩
  simp [hrules, requestRulesOf]

theorem PlacedArgs.tail (h : PlacedArgs rules path i n (node :: rest)) :
    PlacedArgs rules path (i + 1) (n + (requestRules (path ++ [i]) node).length) rest := by
  obtain ⟨pre, post, hrules, hlen, hout⟩ := h
  have hnode := requestRules_below (path ++ [i]) node
  refine ⟨pre ++ requestRules (path ++ [i]) node, post, ?_, ?_, fun j hj => ?_⟩
  · simp [hrules, requestRulesOf]
  · rw [length_append, hlen]
  · obtain ⟨hpre, hpost⟩ := hout j (by omega)
    exact ⟨hpre.append (hnode.outside (by omega)), hpost⟩

theorem Placed.onOperands {operator : Operator} {left right : ExpressionNode F}
    (h : Placed rules path n (.binary operator left right)) :
    PlacedArgs rules path 0 n [left, right] :=
  h.parts [] (by simp [requestRules, requestRulesOf]) fun _ => nofun

theorem Placed.onArgs (h : Placed rules path n (.call name args)) :
    PlacedArgs rules path 0 n args :=
  h.parts [] (by simp [requestRules]) fun _ => nofun

section Conditional

variable {condition yes no : ExpressionNode F}

section

variable (h : Placed rules path n (.conditional condition yes no))
include h

theorem Placed.onParts : PlacedArgs rules path 0 n [condition, yes, no] :=
  h.parts _ (by simp [requestRules, requestRulesOf])
    (ruleOf_outside path (.conditional condition yes no))

theorem Placed.around :
    ∃ before after, Absent path before ∧ Absent path after ∧
      before.length = n + (requestRules (path ++ [0]) condition).length +
        (requestRules (path ++ [1]) yes).length + (requestRules (path ++ [2]) no).length ∧
      rules = before ++ (ruleOf path (.conditional condition yes no)).toList ++ after := by
  obtain ⟨pre, post, hrules, hlen, hpre, hpost⟩ := h
  have hcond := (requestRules_below (path ++ [0]) condition).absent
  have hyes := (requestRules_below (path ++ [1]) yes).absent
  have hno := (requestRules_below (path ++ [2]) no).absent
  refine ⟨pre ++ (requestRules (path ++ [0]) condition ++ requestRules (path ++ [1]) yes ++
    requestRules (path ++ [2]) no), post, hpre.absent.append ((hcond.append hyes).append hno),
    hpost.absent, ?_, ?_⟩
  · simp [hlen, Nat.add_assoc]
  · simp [hrules, requestRules]

theorem Placed.find :
    rules.find? (·.node == path) = ruleOf path (.conditional condition yes no) := by
  obtain ⟨before, after, hbefore, hafter, -, hrules⟩ := h.around
  rw [hrules, find_own hbefore hafter]

/-- Its index counts the rules of what comes before and of its own parts. -/
theorem Placed.index :
    rules.findIdx? (·.node == path) = (ruleOf path (.conditional condition yes no)).map fun _ =>
        n + (requestRules (path ++ [0]) condition).length +
          (requestRules (path ++ [1]) yes).length + (requestRules (path ++ [2]) no).length := by
  obtain ⟨before, after, hbefore, hafter, hlen, hrules⟩ := h.around
  rw [hrules, findIdx_own hbefore hafter, hlen]

end

end Conditional

theorem Placed.find_none (h : Placed rules path n node)
    (hnode : ∀ condition yes no, node ≠ .conditional condition yes no) :
    rules.find? (·.node == path) = none := by
  obtain ⟨pre, post, rfl, -, hpre, hpost⟩ := h
  apply find_absent
  refine (hpre.absent.append ?_).append hpost.absent
  cases node with
  | literal => exact .nil
  | «variable» => exact .nil
  | call _ args => exact requestRulesOf_absent path 0 args
  | unary _ operand => exact (requestRules_below _ operand).absent
  | binary _ left right =>
    exact (requestRules_below _ left).absent.append (requestRules_below _ right).absent
  | conditional condition yes no => exact absurd rfl (hnode condition yes no)

end Placed

/-! ### The two checks -/

theorem WellFormed.literalNumber {x : F} (h : WellFormed node) (hx : literalNumber node = some x) :
    Float64.nonneg x = true ∧ Float64.IsFinite x := by
  cases node with
  | literal value => exact h x hx
  | _ => cases hx

variable {n : Nat}

/-- The rule found for a conditional is the conditional itself. -/
theorem isPriceFactor_conditional {condition yes no : ExpressionNode F}
    (hplaced : Placed rules path n (.conditional condition yes no))
    (hwf : WellFormed (.conditional condition yes no)) :
    isPriceFactor rules path (.conditional condition yes no) =
      isRequestPriceMultiplier (toNode (.conditional condition yes no)) := by
  simp only [isPriceFactor, hplaced.find, ruleOf, toNode, isRequestPriceMultiplier,
    usesRequestProbe_toNode, containsPricing_toNode, requestRuleNumber_toNode_eq]
  cases hyes : literalNumber yes with
  | none => simp
  | some multiplier =>
    cases hno : literalNumber no with
    | none => simp
    | some fallback =>
      -- a multiplier that the lexer can read is finite
      obtain ⟨hnonneg, hnan, hinf⟩ := hwf.2.1.literalNumber hyes
      by_cases hone : Float64.eq fallback (Float64.ofInt 1) = true
      · by_cases hprobe : calls isProbe condition = true
        · simp [hone, hprobe, hnonneg, hnan, hinf]
        · simp [hprobe]
      · simp [hone]

theorem isPriceFactor_toNode {factor : ExpressionNode F}
    (hplaced : Placed rules path n factor) (hwf : WellFormed factor) :
    isPriceFactor rules path factor = isRequestPriceMultiplier (toNode factor) := by
  cases factor with
  | conditional condition yes no => exact isPriceFactor_conditional hplaced hwf
  | «variable» name =>
    have hfind := hplaced.find_none nofun
    cases name <;> simp [isPriceFactor, hfind, toNode, variableName, isRequestPriceMultiplier]
  | literal value =>
    have hfind := hplaced.find_none nofun
    cases value <;> simp [isPriceFactor, hfind, toNode, Literal.toNode, isRequestPriceMultiplier]
  | _ => simp [isPriceFactor, hplaced.find_none, toNode, isRequestPriceMultiplier]

/-- An amount that the lexer can read is admissible for both or for neither. -/
theorem isFixedAmount_toNode {amount : ExpressionNode F} (hwf : WellFormed amount) :
    isFixedAmount (toNode amount) = (literalNumber amount).any fun value =>
      Float64.nonneg value && !Float64.isNaN (Float64.mul value million) &&
        !Float64.isInf (Float64.mul value million) := by
  rw [isFixedAmount, requestRuleNumber_toNode_eq]
  cases hvalue : literalNumber amount with
  | none => rfl
  | some value =>
    obtain ⟨_, hfinite⟩ := hwf.literalNumber hvalue
    have hmillion : Float64.IsFinite (million : F) := Float64.ofInt_finite 1000000 (by decide)
    have hproduct := Float64.mul_isNaN value million hfinite hmillion
    simp [hproduct, hfinite.1]

theorem isPrice_toNode {price : ExpressionNode F} (hwf : WellFormed price) :
    isPrice price = true ↔ validatePrice (toNode price) = .ok () := by
  by_cases hfixed : ∃ args, price = .call .fixed args
  · obtain ⟨args, rfl⟩ := hfixed
    obtain ⟨amount, rfl⟩ := length_eq_one_iff.mp hwf.1
    have hamount := isFixedAmount_toNode hwf.2.1
    simp only [isPrice, ← hamount, validatePrice, toNode, toNodes, fixedArgument,
      BillingFunction.name, beq_self_eq_true, if_true]
    cases isFixedAmount (toNode amount) <;> simp
  · -- no other tree is a call of fixed for either side
    have hprice : isPrice price = !containsPricing price := by
      unfold isPrice
      split
      · next args => exact absurd ⟨_, rfl⟩ hfixed
      · rfl
    have hnone : fixedArgument (toNode price) = none := by
      cases price with
      | call name args =>
        have hname : (name.name == "fixed") = false := by
          rw [nameTest_fixed.function]
          exact beq_eq_false_iff_ne.mpr fun h => hfixed ⟨args, by rw [h]⟩
        unfold fixedArgument
        split
        · next heq =>
          simp only [toNode, Node.call.injEq, Node.identifier.injEq] at heq
          rw [← heq.1, hname]
          rfl
        · rfl
      | literal value => cases value <;> rfl
      | _ => rfl
    rw [validatePrice, hnone, hprice, ← containsPricing_toNode]
    cases containsPricingMarker (toNode price) <;> simp

theorem isLeaf_toNode (hwf : WellFormed (.call name args)) :
    isLeaf (.call name args) = true ↔ validateLeaf (.identifier name.name)
      (toNodes args) = .ok () := by
  by_cases htier : name = .tier
  · subst htier
    obtain ⟨label, price, rfl⟩ := length_eq_two.mp hwf.1
    have hprice := isPrice_toNode hwf.2.2.1
    simp only [isLeaf, validateLeaf, toNodes, BillingFunction.name, containsPricing_toNode]
    cases containsPricing label <;> simp [hprice]
  · have hname : (name.name == "tier") = false := by
      cases name <;> first | rfl | exact absurd rfl htier
    have hleaf : isLeaf (.call name args) = false := by
      unfold isLeaf
      split
      · next heq => cases heq; exact absurd rfl htier
      · rfl
    have hshape : validateLeaf (.identifier name.name) (toNodes args) = .error .shape := by
      unfold validateLeaf
      split
      · next heq _ =>
        cases heq
        simp [bne, hname]
      · rfl
    simp [hleaf, hshape]

/-- A node that is neither a conditional nor a product is accepted as a leaf or not at all. -/
theorem validate_leaf (hwf : WellFormed node)
    (hcond : ∀ condition yes no, node ≠ .conditional condition yes no)
    (hmul : ∀ left right, node ≠ .binary .mul left right) :
    Expression.validateFixedPricingTree (toNode node) = .ok () ↔ isLeaf node = true := by
  cases node with
  | call name args => exact (isLeaf_toNode hwf).symm
  | conditional condition yes no => exact absurd rfl (hcond condition yes no)
  | binary operator left right =>
    cases operator with
    | mul => exact absurd rfl (hmul left right)
    | _ => exact ⟨nofun, nofun⟩
  | literal value => cases value <;> exact ⟨nofun, nofun⟩
  | _ => exact ⟨nofun, nofun⟩

theorem bind_ok {ε : Type} {x y : Except ε Unit} :
    (x >>= fun _ => y) = .ok () ↔ x = .ok () ∧ y = .ok () := by
  cases x <;> simp [bind, Except.bind]

theorem validate_toNode (hplaced : Placed rules path n node) (hwf : WellFormed node) :
    validateFixedPricingTree rules path node = .ok () ↔
      Expression.validateFixedPricingTree (toNode node) = .ok () := by
  fun_induction validateFixedPricingTree rules path node generalizing n with
  | case1 path condition yes no hmarker =>
    simp [toNode, Expression.validateFixedPricingTree, containsPricing_toNode, hmarker]
  | case2 path condition yes no hmarker ihyes ihno =>
    simp only [toNode, Expression.validateFixedPricingTree, containsPricing_toNode, hmarker,
      Bool.false_eq_true, if_false, bind_ok]
    rw [ihyes hplaced.onParts.tail.head hwf.2.1, ihno hplaced.onParts.tail.tail.head hwf.2.2]
  | case3 path left right hfactor ih =>
    rw [isPriceFactor_toNode hplaced.onOperands.tail.head hwf.2] at hfactor
    simp only [toNode, Operator.toBinaryOp, Expression.validateFixedPricingTree, hfactor]
    exact ih hplaced.onOperands.head hwf.1
  | case4 path left right hright hfactor ih =>
    rw [isPriceFactor_toNode hplaced.onOperands.tail.head hwf.2] at hright
    rw [isPriceFactor_toNode hplaced.onOperands.head hwf.1] at hfactor
    simp only [toNode, Operator.toBinaryOp, Expression.validateFixedPricingTree, hright, hfactor]
    exact ih hplaced.onOperands.tail.head hwf.2
  | case5 path left right hright hleft =>
    rw [isPriceFactor_toNode hplaced.onOperands.tail.head hwf.2] at hright
    rw [isPriceFactor_toNode hplaced.onOperands.head hwf.1] at hleft
    simp [toNode, Operator.toBinaryOp, Expression.validateFixedPricingTree, hright, hleft]
  | case6 path node hcond hmul hleaf => simp [validate_leaf hwf hcond hmul, hleaf]
  | case7 path node hcond hmul hleaf => simp [validate_leaf hwf hcond hmul, hleaf]

/-- **The two checks of fixed prices agree.**  On every tree that the editor's parser can build,
    both sides run their check for the same trees, and then accept the same trees. -/
theorem fixedPricing_agrees (ast : ExpressionNode F) (hwf : WellFormed ast) :
    usesFixed ast = usesFixedPricing (toNode ast) ∧
      (validateFixedPricingTree (requestRules [] ast) [] ast = .ok () ↔
        Expression.validateFixedPricingTree (toNode ast) = .ok ()) ∧
      (checkFixedPricing ast = .ok () ↔ (usesFixedPricing (toNode ast) = true →
          Expression.validateFixedPricingTree (toNode ast) = .ok ())) := by
  have huses : usesFixed ast = usesFixedPricing (toNode ast) :=
    (mentions_toNode nameTest_fixed ast).symm
  have hcheck := validate_toNode (placed_root ast) hwf
  refine ⟨huses, hcheck, ?_⟩
  rw [checkFixedPricing, huses]
  cases usesFixedPricing (toNode ast) with
  | false => simp
  | true => simpa using hcheck

/-- `tier("flat", fixed(3)) * (param("vip") == "yes" ? 2 : 1)`. -/
def vipPrice : ExpressionNode Whole :=
  .binary .mul (.call .tier [.literal (.string "flat"), .call .fixed [.literal (.integer 3)]])
    (.conditional
      (.binary .eq (.call .param [.literal (.string "vip")]) (.literal (.string "yes")))
      (.literal (.integer 2)) (.literal (.integer 1)))

theorem wellFormed_integer (i : Nat) (h : i ≤ 2 ^ 53) :
    WellFormed (.literal (.integer i) : ExpressionNode Whole) := by
  intro x hx
  cases hx
  exact ⟨Float64.ofInt_nonneg _ (Int.natCast_nonneg i), Float64.ofInt_finite _ (by simpa using h)⟩

theorem vipPrice_wellFormed : WellFormed vipPrice :=
  ⟨⟨rfl, nofun, ⟨rfl, wellFormed_integer 3 (by decide), trivial⟩, trivial⟩,
    ⟨⟨rfl, nofun, trivial⟩, nofun⟩, wellFormed_integer 2 (by decide),
    wellFormed_integer 1 (by decide)⟩

theorem vipPrice_agrees :
    WellFormed vipPrice ∧ usesFixed vipPrice = true ∧
      validateFixedPricingTree (requestRules [] vipPrice) [] vipPrice = .ok () ∧
      Expression.validateFixedPricingTree (toNode vipPrice) = .ok () := by
  have haccepted : validateFixedPricingTree (requestRules [] vipPrice) [] vipPrice = .ok () := rfl
  exact ⟨vipPrice_wellFormed, rfl, haccepted,
    (fixedPricing_agrees vipPrice vipPrice_wellFormed).2.1.mp haccepted⟩

end TokenGateway.Editor
