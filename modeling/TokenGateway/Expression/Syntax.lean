import Mathlib.Algebra.Group.Nat.Defs
import Mathlib.Data.List.Infix

namespace TokenGateway.Expression

/-!
# The syntax of billing expressions

`pkg/billingexpr` compiles expressions of the expr-lang language against one fixed environment
(`compileEnvPrototypeV1`).  This file holds the trees its passes work on:

* `Float64` — what the passes need of `float64`;
* `Variable`, `HostFunction`, `EnvEntry` — the names of the environment;
* `Node` — the nodes of expr-lang's `ast` package: literals, identifiers, unary and binary
  operators, calls, conditionals and member access;
* `Node.mentions` — `ast.Find` over the identifiers of a tree;
* `usesRequestProbe`, `containsPricingMarker`, `requestRuleNumber` — the tests the passes share.
-/

/-- The operations on `float64` that the billing code itself performs.  Everything else an
    expression computes is done by the operators of expr-lang. -/
class Float64 (F : Type) where
  /-- `float64(i)`. -/
  ofInt : Int → F
  /-- The product, rounded. -/
  mul : F → F → F
  /-- IEEE equality. -/
  eq : F → F → Bool
  /-- `0 <= x`; false of NaN. -/
  (nonneg isNaN isInf : F → Bool)
  (max min : F → F → F)
  (abs ceil floor : F → F)
  /-- What compares equal to 1 is 1. -/
  eq_one : ∀ x, eq x (ofInt 1) = true → x = ofInt 1
  ofInt_one : ∀ i, ofInt i = ofInt 1 → i = 1
  one_eq : eq (ofInt 1) (ofInt 1) = true
  /-- Integers below `2 ^ 53` are represented exactly. -/
  ofInt_finite : ∀ i : Int, i.natAbs ≤ 2 ^ 53 → isNaN (ofInt i) = false ∧ isInf (ofInt i) = false
  ofInt_nonneg : ∀ i, 0 ≤ i → nonneg (ofInt i) = true
  /-- The order of two factors does not matter. -/
  mul_comm : ∀ a b, mul a b = mul b a
  /-- The product of two finite numbers may overflow but is a number, of the right sign. -/
  mul_isNaN : ∀ a b, (isNaN a = false ∧ isInf a = false) → (isNaN b = false ∧ isInf b = false) →
    isNaN (mul a b) = false
  mul_nonneg : ∀ a b, (isNaN a = false ∧ isInf a = false) → (isNaN b = false ∧ isInf b = false) →
    nonneg a = true → nonneg b = true → nonneg (mul a b) = true

def Float64.IsFinite {F : Type} [Float64 F] (x : F) : Prop := isNaN x = false ∧ isInf x = false

/-! ### The environment -/

inductive Variable where
  | imageCount | p | c | len | cr | cc | cc1h | img | imgCR | imgO | ai | ao
  deriving DecidableEq

/-- The functions of the environment. -/
inductive HostFunction where
  | tier | fixed | trace | traceInt | header | param | u | has
  | hour | minute | weekday | month | day
  | max | min | abs | ceil | floor
  deriving DecidableEq

/-- What a name of the environment stands for. -/
inductive EnvEntry where
  | var (v : Variable)
  | func (f : HostFunction)

/-- The names of `compileEnvPrototypeV1`, which are those of the environment of `runProgram`. -/
def envEntry : String → Option EnvEntry
  | "image_count" => some (.var .imageCount)
  | "p" => some (.var .p)
  | "c" => some (.var .c)
  | "len" => some (.var .len)
  | "cr" => some (.var .cr)
  | "cc" => some (.var .cc)
  | "cc1h" => some (.var .cc1h)
  | "img" => some (.var .img)
  | "img_cr" => some (.var .imgCR)
  | "img_o" => some (.var .imgO)
  | "ai" => some (.var .ai)
  | "ao" => some (.var .ao)
  | "tier" => some (.func .tier)
  | "fixed" => some (.func .fixed)
  | "_trace" => some (.func .trace)
  | "_trace_int" => some (.func .traceInt)
  | "header" => some (.func .header)
  | "param" => some (.func .param)
  | "u" => some (.func .u)
  | "has" => some (.func .has)
  | "hour" => some (.func .hour)
  | "minute" => some (.func .minute)
  | "weekday" => some (.func .weekday)
  | "month" => some (.func .month)
  | "day" => some (.func .day)
  | "max" => some (.func .max)
  | "min" => some (.func .min)
  | "abs" => some (.func .abs)
  | "ceil" => some (.func .ceil)
  | "floor" => some (.func .floor)
  | _ => none

/-- `$env`: the environment itself, as a value. -/
def envName : String := "$env"

def requestRuleTraceFunction : String := "_trace"

def requestRuleTraceIntFunction : String := "_trace_int"

/-! ### Trees -/

inductive UnaryOp where
  | not | neg | plus
  deriving DecidableEq

/-- The binary operators of expr-lang. -/
inductive BinaryOp where
  | or | and | coalesce
  | eq | ne | lt | le | gt | ge
  | add | sub | mul | div | mod | pow
  | contains | startsWith | endsWith | matches | membership | range
  deriving DecidableEq

/-- A node of the tree.  `ternary` tells `c ? t : e` from `if c { t } else { e }`. -/
inductive Node (F : Type) where
  | nil
  | bool (value : Bool)
  | integer (value : Int)
  | float (value : F)
  | string (value : String)
  | identifier (value : String)
  | unary (operator : UnaryOp) (node : Node F)
  | binary (operator : BinaryOp) (left right : Node F)
  | call (callee : Node F) (arguments : List (Node F))
  | conditional (ternary : Bool) (cond exp1 exp2 : Node F)
  | member (node property : Node F)

variable {F : Type}

mutual

/-- `ast.Find` for an identifier whose name satisfies `p`. -/
def Node.mentions (p : String → Bool) : Node F → Bool
  | .nil | .bool _ | .integer _ | .float _ | .string _ => false
  | .identifier value => p value
  | .unary _ node => node.mentions p
  | .binary _ left right => left.mentions p || right.mentions p
  | .call callee arguments => callee.mentions p || mentionsAny p arguments
  | .conditional _ cond exp1 exp2 => cond.mentions p || exp1.mentions p || exp2.mentions p
  | .member node property => node.mentions p || property.mentions p

/-- The same in a list of arguments. -/
def mentionsAny (p : String → Bool) : List (Node F) → Bool
  | [] => false
  | node :: rest => node.mentions p || mentionsAny p rest

end

def Node.IsNumber (node : Node F) : Prop := (∃ i, node = .integer i) ∨ ∃ f, node = .float f

theorem mentions_number {node : Node F} (p : String → Bool) (h : node.IsNumber) :
    node.mentions p = false := by
  obtain ⟨i, rfl⟩ | ⟨f, rfl⟩ := h <;> rfl

mutual

/-- A tree without member access: literals, identifiers, operators, calls and conditionals. -/
def Node.memberFree : Node F → Bool
  | .nil | .bool _ | .integer _ | .float _ | .string _ | .identifier _ => true
  | .unary _ node => node.memberFree
  | .binary _ left right => left.memberFree && right.memberFree
  | .call callee arguments => callee.memberFree && memberFreeArgs arguments
  | .conditional _ cond exp1 exp2 => cond.memberFree && exp1.memberFree && exp2.memberFree
  | .member _ _ => false

def memberFreeArgs : List (Node F) → Bool
  | [] => true
  | node :: rest => node.memberFree && memberFreeArgs rest

end

/-! ### Tests on trees -/

/-- The functions that read the request or the clock. -/
def isRequestProbe (name : String) : Bool :=
  ["param", "header", "hour", "minute", "weekday", "month", "day"].contains name

def usesRequestProbe (node : Node F) : Bool := node.mentions isRequestProbe

/-- The names of the pricing functions. -/
def isPricingMarker (name : String) : Bool := name == "tier" || name == "fixed"

def containsPricingMarker (node : Node F) : Bool := node.mentions isPricingMarker

/-- The names that only the instrumentation may use. -/
def isReserved (name : String) : Bool :=
  name == requestRuleTraceFunction || name == requestRuleTraceIntFunction

variable [Float64 F]

/-- The value of a number literal. -/
def requestRuleNumber : Node F → Option F
  | .integer value => some (Float64.ofInt value)
  | .float value => some value
  | _ => none

end TokenGateway.Expression
