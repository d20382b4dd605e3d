import TokenGateway.Expression.Syntax

namespace TokenGateway.Editor

open Expression

/-!
# Expression trees of the editor

`web/src/features/pricing/lib/billing-expression`: the editor parses billing expressions itself.
Its trees (`ExpressionNode` in `types.ts`) cover a part of the language; every one of them is also a
tree of the backend.

* `BillingFunction` — `BILLING_FUNCTIONS`, with the number of arguments;
* `ExpressionNode` — the trees;
* `WellFormed` — what the parser guarantees: arities, and finite non-negative number literals;
* `toNode` — the same tree as the backend's parser builds it;
* `calls`, `reads` — `expressionDependencies(node)`.
-/

variable {F : Type}

/-- `BILLING_FUNCTIONS`. -/
inductive BillingFunction where
  | tier | fixed | param | header | has | u
  | hour | minute | weekday | month | day
  | min | max | abs | ceil | floor
  deriving DecidableEq

/-- The number of arguments the parser asks for. -/
def BillingFunction.arity : BillingFunction → Nat
  | .tier | .has | .min | .max => 2
  | _ => 1

def BillingFunction.name : BillingFunction → String
  | .tier => "tier"
  | .fixed => "fixed"
  | .param => "param"
  | .header => "header"
  | .has => "has"
  | .u => "u"
  | .hour => "hour"
  | .minute => "minute"
  | .weekday => "weekday"
  | .month => "month"
  | .day => "day"
  | .min => "min"
  | .max => "max"
  | .abs => "abs"
  | .ceil => "ceil"
  | .floor => "floor"

/-- The backend's function of this name. -/
def BillingFunction.host : BillingFunction → HostFunction
  | .tier => .tier
  | .fixed => .fixed
  | .param => .param
  | .header => .header
  | .has => .has
  | .u => .u
  | .hour => .hour
  | .minute => .minute
  | .weekday => .weekday
  | .month => .month
  | .day => .day
  | .min => .min
  | .max => .max
  | .abs => .abs
  | .ceil => .ceil
  | .floor => .floor

def variableName : Variable → String
  | .imageCount => "image_count"
  | .p => "p"
  | .c => "c"
  | .len => "len"
  | .cr => "cr"
  | .cc => "cc"
  | .cc1h => "cc1h"
  | .img => "img"
  | .imgCR => "img_cr"
  | .imgO => "img_o"
  | .ai => "ai"
  | .ao => "ao"

theorem envEntry_function (f : BillingFunction) : envEntry f.name = some (.func f.host) := by
  cases f <;> rfl

theorem envEntry_variable (v : Variable) : envEntry (variableName v) = some (.var v) := by
  cases v <;> rfl

theorem variableName_inj {v w : Variable} : variableName v = variableName w ↔ v = w := by
  constructor
  · intro h
    have hentry := envEntry_variable v
    rw [h, envEntry_variable] at hentry
    injection hentry with hentry
    injection hentry with hentry
    exact hentry.symm
  · exact congrArg variableName

theorem name_ne_variableName (f : BillingFunction) (v : Variable) : f.name ≠ variableName v := by
  intro h
  have hentry := envEntry_function f
  rw [h, envEntry_variable] at hentry
  cases hentry

/-- The value of a literal; `integer` numbers are those written without `.` and exponent. -/
inductive Literal (F : Type) where
  | null
  | boolean (b : Bool)
  | integer (i : Int)
  | decimal (f : F)
  | string (s : String)
  deriving DecidableEq

inductive Operator where
  | or | and | eq | ne | lt | le | gt | ge | add | sub | mul | div | mod
  deriving DecidableEq

/-- `ExpressionNode`, without its source positions. -/
inductive ExpressionNode (F : Type) where
  | literal (value : Literal F)
  | variable (name : Variable)
  | call (name : BillingFunction) (args : List (ExpressionNode F))
  | unary (operator : UnaryOp) (operand : ExpressionNode F)
  | binary (operator : Operator) (left right : ExpressionNode F)
  | conditional (condition yes no : ExpressionNode F)

/-! ### The backend's tree -/

def Literal.toNode : Literal F → Node F
  | .null => .nil
  | .boolean b => .bool b
  | .integer i => .integer i
  | .decimal f => .float f
  | .string s => .string s

def Operator.toBinaryOp : Operator → BinaryOp
  | .or => .or
  | .and => .and
  | .eq => .eq
  | .ne => .ne
  | .lt => .lt
  | .le => .le
  | .gt => .gt
  | .ge => .ge
  | .add => .add
  | .sub => .sub
  | .mul => .mul
  | .div => .div
  | .mod => .mod

mutual

/-- The tree that the backend parses from the same source. -/
def toNode : ExpressionNode F → Node F
  | .literal value => value.toNode
  | .variable name => .identifier (variableName name)
  | .call name args => .call (.identifier name.name) (toNodes args)
  | .unary operator operand => .unary operator (toNode operand)
  | .binary operator left right => .binary operator.toBinaryOp (toNode left) (toNode right)
  | .conditional condition yes no => .conditional true (toNode condition) (toNode yes) (toNode no)

def toNodes : List (ExpressionNode F) → List (Node F)
  | [] => []
  | node :: rest => toNode node :: toNodes rest

end

/-! ### Dependencies -/

mutual

/-- Some function the tree calls satisfies `p`. -/
def calls (p : BillingFunction → Bool) : ExpressionNode F → Bool
  | .literal _ | .variable _ => false
  | .call name args => p name || callsAny p args
  | .unary _ operand => calls p operand
  | .binary _ left right => calls p left || calls p right
  | .conditional condition yes no => calls p condition || calls p yes || calls p no

def callsAny (p : BillingFunction → Bool) : List (ExpressionNode F) → Bool
  | [] => false
  | node :: rest => calls p node || callsAny p rest

end

/-- A test of names that holds of the name of a function iff `p` holds of it, and of no variable. -/
structure NameTest (p : BillingFunction → Bool) (q : String → Bool) : Prop where
  function : ∀ f, q f.name = p f
  noVariable : ∀ v, q (variableName v) = false

variable {p : BillingFunction → Bool} {q : String → Bool}

mutual

/-- The functions of a tree are the function names the backend's tree mentions. -/
theorem mentions_toNode (h : NameTest p q) :
    ∀ node : ExpressionNode F, (toNode node).mentions q = calls p node
  | .literal value => by cases value <;> rfl
  | .variable name => h.noVariable name
  | .call name args => by
    simp [toNode, Node.mentions, calls, h.function, mentionsAny_toNodes h]
  | .unary .. | .binary .. | .conditional .. => by
    simp [toNode, Node.mentions, calls, mentions_toNode h]

theorem mentionsAny_toNodes (h : NameTest p q) :
    ∀ nodes : List (ExpressionNode F), mentionsAny q (toNodes nodes) = callsAny p nodes
  | [] => rfl
  | node :: rest => by
    simp [toNodes, mentionsAny, callsAny, mentions_toNode h, mentionsAny_toNodes h]

end

mutual

def reads (v : Variable) : ExpressionNode F → Bool
  | .literal _ => false
  | .variable name => name == v
  | .call _ args => readsAny v args
  | .unary _ operand => reads v operand
  | .binary _ left right => reads v left || reads v right
  | .conditional condition yes no => reads v condition || reads v yes || reads v no

def readsAny (v : Variable) : List (ExpressionNode F) → Bool
  | [] => false
  | node :: rest => reads v node || readsAny v rest

end

mutual

/-- The variables of a tree are the variable names the backend's tree mentions. -/
theorem mentions_variable (v : Variable) :
    ∀ node : ExpressionNode F, (toNode node).mentions (· == variableName v) = reads v node
  | .literal value => by cases value <;> rfl
  | .variable name => by
    by_cases h : name = v
    · subst h
      simp [toNode, Node.mentions, reads]
    · simp [toNode, Node.mentions, reads, variableName_inj]
  | .call name args => by
    have hname := beq_eq_false_iff_ne.mpr (name_ne_variableName name v)
    simp [toNode, Node.mentions, reads, hname, mentionsAny_variable]
  | .unary .. | .binary .. | .conditional .. => by
    simp [toNode, Node.mentions, reads, mentions_variable]

theorem mentionsAny_variable (v : Variable) :
    ∀ nodes : List (ExpressionNode F), mentionsAny (· == variableName v)
      (toNodes nodes) = readsAny v nodes
  | [] => rfl
  | node :: rest => by
    simp [toNodes, mentionsAny, readsAny, mentions_variable, mentionsAny_variable]

end

/-- `tier` and `fixed`. -/
def isPricing (f : BillingFunction) : Bool := f == .tier || f == .fixed

/-- The functions that read the request or the clock. -/
def isProbe (f : BillingFunction) : Bool :=
  [.param, .header, .hour, .minute, .weekday, .month, .day].contains f

theorem nameTest_pricing : NameTest isPricing isPricingMarker where
  function f := by cases f <;> rfl
  noVariable v := by cases v <;> rfl

theorem nameTest_probe : NameTest isProbe isRequestProbe where
  function f := by cases f <;> rfl
  noVariable v := by cases v <;> rfl

theorem nameTest_fixed : NameTest (· == .fixed) (· == "fixed") where
  function f := by cases f <;> rfl
  noVariable v := by cases v <;> rfl

/-! ### What the parser guarantees -/

variable [Float64 F]

def Literal.number : Literal F → Option F
  | .integer i => some (Float64.ofInt i)
  | .decimal f => some f
  | _ => none

theorem requestRuleNumber_toNode (value : Literal F) :
    requestRuleNumber value.toNode = value.number := by
  cases value <;> rfl

mutual

/-- Calls have the right number of arguments, and number literals, which carry no sign, are finite
    and non-negative. -/
def WellFormed : ExpressionNode F → Prop
  | .literal value => ∀ x, value.number = some x → Float64.nonneg x = true ∧ Float64.IsFinite x
  | .variable _ => True
  | .call name args => args.length = name.arity ∧ WellFormedArgs args
  | .unary _ operand => WellFormed operand
  | .binary _ left right => WellFormed left ∧ WellFormed right
  | .conditional condition yes no => WellFormed condition ∧ WellFormed yes ∧ WellFormed no

def WellFormedArgs : List (ExpressionNode F) → Prop
  | [] => True
  | node :: rest => WellFormed node ∧ WellFormedArgs rest

end

end TokenGateway.Editor
