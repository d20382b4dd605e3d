import TokenGateway.Base.Run
import TokenGateway.Expression.Syntax

namespace TokenGateway.Expression

open Base

/-!
# Checking and running a tree

What expr-lang does with a tree.  Its operators, and what it does with an argument that does not
have the type of its parameter, are the parameters of a `Machine`; the rest follows the nodes.

* `typeOf` — the type checker: every identifier must be a name of the environment, a call must fit
  the signature of its function, a conditional needs a boolean (or unknown) condition;
* `convert` — integer literals become floats in an argument that is handed to a `float64`;
* `compile` — both, with the numeric result that `expr.AsFloat64` asks for;
* `eval` — the run, with the effects of the environment's functions on a state `σ`.

`eval` also numbers the request rules of the tree in the order a visitor meets them and reports
each rule evaluated with a true condition to its `Handler`.  A plain run ignores the report.
-/

/-! ### Values and types -/

/-- Plain data.  A JSON array or object is known by its canonical text. -/
inductive Datum (F : Type) where
  | nil
  | bool (b : Bool)
  | int (i : Int)
  | float (f : F)
  | str (s : String)
  | json (canonical : String)
  deriving DecidableEq

/-- What an expression can evaluate to: data, a function of the environment, or the environment. -/
inductive Value (F : Type) where
  | data (d : Datum F)
  | func (f : HostFunction)
  | env
  deriving DecidableEq

/-- The types of the checker; `unknown` is Go's `any`. -/
inductive Ty where
  | unknown | nil | bool | int | float | str | func (f : HostFunction) | env
  deriving DecidableEq

/-- The parameters of a function of the environment. -/
def HostFunction.params : HostFunction → List Ty
  | .tier => [.str, .float]
  | .fixed => [.float]
  | .trace => [.int, .bool, .float]
  | .traceInt => [.int, .bool, .int]
  | .header | .param | .u => [.str]
  | .has => [.unknown, .str]
  | .hour | .minute | .weekday | .month | .day => [.str]
  | .max | .min => [.float, .float]
  | .abs | .ceil | .floor => [.float]

def HostFunction.result : HostFunction → Ty
  | .tier | .fixed | .trace | .max | .min | .abs | .ceil | .floor => .float
  | .traceInt | .hour | .minute | .weekday | .month | .day => .int
  | .header => .str
  | .param | .u => .unknown
  | .has => .bool

variable {F σ : Type}

/-- A value that a Go parameter of this type takes as it is. -/
def Value.hasType : Ty → Value F → Bool
  | .unknown, _ => true
  | .bool, .data (.bool _) => true
  | .int, .data (.int _) => true
  | .float, .data (.float _) => true
  | .str, .data (.str _) => true
  | _, _ => false

def Value.asBool : Value F → Option Bool
  | .data (.bool b) => some b
  | _ => none

def Value.isNil : Value F → Bool
  | .data .nil => true
  | _ => false

/-- The part of expr-lang that is not modelled node by node. -/
structure Machine (F : Type) where
  /-- The type of an operator, if its operands are admissible. -/
  unaryType : UnaryOp → Ty → Option Ty
  binaryType : BinaryOp → Ty → Ty → Option Ty
  memberType : Ty → Ty → Option Ty
  /-- The result of a strict operator, if it does not panic. -/
  unary : UnaryOp → Value F → Option (Datum F)
  binary : BinaryOp → Value F → Value F → Option (Datum F)
  /-- Member access on anything but the environment. -/
  member : Value F → Value F → Option (Datum F)
  /-- What the call of a function hands over for a value that lacks the parameter's type, if it
      does not panic. -/
  coerce : HostFunction → Ty → Value F → Option (Value F)

/-- The value a parameter receives. -/
def Machine.pass (M : Machine F) (f : HostFunction) (ty : Ty) (v : Value F) : Option (Value F) :=
  if v.hasType ty then some v else (M.coerce f ty v).filter (·.hasType ty)

/-- The values all parameters receive. -/
def Machine.passAll (M : Machine F) (f : HostFunction) :
    List Ty → List (Value F) → Option (List (Value F))
  | [], [] => some []
  | ty :: tys, v :: vs => do
    let w ← M.pass f ty v
    let ws ← M.passAll f tys vs
    return w :: ws
  | _, _ => none

theorem Machine.pass_of_hasType {M : Machine F} {f : HostFunction} {t : Ty} {v : Value F}
    (h : v.hasType t = true) : M.pass f t v = some v :=
  if_pos h

theorem Machine.pass_bool {M : Machine F} {f : HostFunction} {v w : Value F}
    (h : M.pass f .bool v = some w) : ∃ b, w = .data (.bool b) := by
  have hw : w.hasType .bool = true := by
    unfold pass at h
    split at h
    · next hv => cases h; exact hv
    · exact (Option.filter_eq_some_iff.mp h).2
  unfold Value.hasType at hw
  split at hw
  all_goals simp_all

/-! ### The type checker -/

/-- The type of a name of the environment. -/
def entryType : String → Option Ty := fun name =>
  (envEntry name).map fun
    | .var _ => .float
    | .func f => .func f

def identifierType (name : String) : Option Ty :=
  if name == envName then some .env else entryType name

/-- An argument of type `arg` is admissible for a parameter of type `param`. -/
def accepts (param arg : Ty) : Bool :=
  param == .unknown || arg == .unknown || arg == param || (param == .float && arg == .int)

def callType : Ty → List Ty → Option Ty
  | .func f, args =>
    if args.length == f.params.length && (f.params.zip args).all fun pa => accepts pa.1 pa.2 then
      some f.result
    else none
  | .unknown, _ => some .unknown
  | _, _ => none

/-- The type of a conditional with branches of these types. -/
def branchType (t e : Ty) : Ty :=
  if t = e then t else if t = .nil then e else if e = .nil then t else .unknown

def conditionalType (c t e : Ty) : Option Ty :=
  if c = .bool ∨ c = .unknown then some (branchType t e) else none

/-- The type of a member of the environment; only a literal property is looked up. -/
def envMemberType (property : Node F) (ty : Ty) : Option Ty :=
  match property with
  | .string name => entryType name
  | _ => if ty = .str ∨ ty = .unknown then some .unknown else none

variable (M : Machine F)

mutual

def typeOf : Node F → Option Ty
  | .nil => some .nil
  | .bool _ => some .bool
  | .integer _ => some .int
  | .float _ => some .float
  | .string _ => some .str
  | .identifier value => identifierType value
  | .unary operator node => (typeOf node).bind (M.unaryType operator)
  | .binary operator left right =>
    (typeOf left).bind fun l => (typeOf right).bind fun r => M.binaryType operator l r
  | .call callee arguments =>
    (typeOf callee).bind fun f => (typesOf arguments).bind fun args => callType f args
  | .conditional _ cond exp1 exp2 =>
    (typeOf cond).bind fun c => (typeOf exp1).bind fun t => (typeOf exp2).bind fun e =>
      conditionalType c t e
  | .member node property =>
    (typeOf node).bind fun n => (typeOf property).bind fun p =>
      if n = .env then envMemberType property p else M.memberType n p

def typesOf : List (Node F) → Option (List Ty)
  | [] => some []
  | node :: rest => (typeOf node).bind fun t => (typesOf rest).bind fun ts => some (t :: ts)

end

/-! ### Literals in argument position -/

section Literals

variable [Float64 F]

/-- Integer literals of a sum, difference or product become floats. -/
def floatLiterals : Node F → Node F
  | .integer value => .float (Float64.ofInt value)
  | .unary operator node => .unary operator (floatLiterals node)
  | .binary .add left right => .binary .add (floatLiterals left) (floatLiterals right)
  | .binary .sub left right => .binary .sub (floatLiterals left) (floatLiterals right)
  | .binary .mul left right => .binary .mul (floatLiterals left) (floatLiterals right)
  | node => node

/-- The parameter types of a callee, as far as they are known. -/
def calleeParams (callee : Node F) : List Ty :=
  match typeOf M callee with
  | some (.func f) => f.params
  | _ => []

mutual

/-- The tree that runs: an argument of integer type for a `float64` has its literals converted. -/
def convert : Node F → Node F
  | .unary operator node => .unary operator (convert node)
  | .binary operator left right => .binary operator (convert left) (convert right)
  | .call callee arguments =>
    .call (convert callee) (convertArgs (calleeParams M callee) arguments)
  | .conditional ternary cond exp1 exp2 =>
    .conditional ternary (convert cond) (convert exp1) (convert exp2)
  | .member node property => .member (convert node) (convert property)
  | node => node

def convertArgs : List Ty → List (Node F) → List (Node F)
  | _, [] => []
  | params, node :: rest =>
    (if params.head? = some .float ∧ typeOf M node = some .int then floatLiterals (convert node)
      else convert node) :: convertArgs params.tail rest

end

/-- A result that `expr.AsFloat64` can cast. -/
def Ty.isNumber (t : Ty) : Bool := t == .int || t == .float || t == .unknown

/-- `expr.Compile(…, expr.Env(…), expr.AsFloat64())`. -/
def compile (node : Node F) : Option (Node F) :=
  if (typeOf M node).any Ty.isNumber then some (convert M node) else none

/-- The cast of `expr.AsFloat64`. -/
def Value.asFloat : Value F → Option F
  | .data (.int i) => some (Float64.ofInt i)
  | .data (.float f) => some f
  | _ => none

/-! ### Request rules -/

/-- `<request-probe condition> ? <number> : 1`. -/
def isRequestRule : Node F → Bool
  | .conditional true cond exp1 exp2 =>
    usesRequestProbe cond && (requestRuleNumber exp1).isSome &&
      (requestRuleNumber exp2).any fun fallback => Float64.eq fallback (Float64.ofInt 1)
  | _ => false

/-- The trace function that fits the literals of a rule. -/
def ruleFunction : Node F → Node F → HostFunction
  | .integer _, .integer _ => .traceInt
  | _, _ => .trace

mutual

/-- The number of request rules in a tree. -/
def ruleCount : Node F → Nat
  | .unary _ node => ruleCount node
  | .binary _ left right => ruleCount left + ruleCount right
  | .call callee arguments => ruleCount callee + ruleCounts arguments
  | .conditional ternary cond exp1 exp2 =>
    ruleCount cond + ruleCount exp1 + ruleCount exp2 +
      (isRequestRule (.conditional ternary cond exp1 exp2)).toNat
  | .member node property => ruleCount node + ruleCount property
  | _ => 0

def ruleCounts : List (Node F) → Nat
  | [] => 0
  | node :: rest => ruleCount node + ruleCounts rest

end

mutual

/-- The conditions of the request rules in a tree. -/
def ruleConditions : Node F → List (Node F)
  | .unary _ node => ruleConditions node
  | .binary _ left right => ruleConditions left ++ ruleConditions right
  | .call callee arguments => ruleConditions callee ++ ruleConditionsArgs arguments
  | .conditional ternary cond exp1 exp2 =>
    (if isRequestRule (.conditional ternary cond exp1 exp2) then [cond] else []) ++
      (ruleConditions cond ++ (ruleConditions exp1 ++ ruleConditions exp2))
  | .member node property => ruleConditions node ++ ruleConditions property
  | _ => []

def ruleConditionsArgs : List (Node F) → List (Node F)
  | [] => []
  | node :: rest => ruleConditions node ++ ruleConditionsArgs rest

end

end Literals

/-! ### Evaluation -/

/-- What a run does outside the tree: the variables, the functions, how the condition of a request
    rule is read, and what happens when a rule is evaluated with a true condition. -/
structure Handler (F σ : Type) where
  value : Variable → F
  call : HostFunction → List (Value F) → Run σ (Datum F)
  condition : HostFunction → Value F → Option Bool
  matched : Nat → σ → σ

variable (H : Handler F σ)

/-- The value of a name of the environment. -/
def Handler.load (name : String) : Option (Value F) :=
  (envEntry name).map fun
    | .var v => .data (.float (H.value v))
    | .func f => .func f

def Handler.identifier (name : String) : Option (Value F) :=
  if name == envName then some .env else H.load name

/-- A member of the environment; a map gives nil for a missing key. -/
def Handler.member (M : Machine F) : Value F → Value F → Option (Value F)
  | .env, .data (.str name) => some ((H.load name).getD (.data .nil))
  | .env, _ => none
  | object, property => (M.member object property).map .data

def Handler.apply (M : Machine F) (callee : Value F) (args : List (Value F)) : Run σ (Value F) :=
  match callee with
  | .func f =>
    Run.lift (M.passAll f f.params args) >>= fun passed => H.call f passed >>= fun d =>
      pure (.data d)
  | _ => Run.fail

/-- Continue according to a boolean. -/
def branch (b : Option Bool) (whenTrue whenFalse : Run σ (Value F)) : Run σ (Value F) :=
  match b with
  | none => Run.fail
  | some true => whenTrue
  | some false => whenFalse

/-- Report a matched rule, then go on. -/
def Handler.report (number : Nat) (next : Run σ (Value F)) : Run σ (Value F) :=
  fun s => next (H.matched number s)

variable [Float64 F]

mutual

/-- The run of a tree whose first request rule has the number `n`.  Arguments are evaluated before
    the callee, `&&`, `||` and `??` skip their right side, and the right side of `&&` and `||` is
    not checked. -/
def eval (M : Machine F) (H : Handler F σ) (n : Nat) : Node F → Run σ (Value F)
  | .nil => pure (.data .nil)
  | .bool value => pure (.data (.bool value))
  | .integer value => pure (.data (.int value))
  | .float value => pure (.data (.float value))
  | .string value => pure (.data (.str value))
  | .identifier value => Run.lift (H.identifier value)
  | .unary operator node => eval M H n node >>= fun v => Run.lift ((M.unary operator v).map .data)
  | .binary operator left right =>
    eval M H n left >>= fun l =>
      match operator with
      | .and => branch l.asBool (eval M H (n + ruleCount left) right) (pure (.data (.bool false)))
      | .or => branch l.asBool (pure (.data (.bool true))) (eval M H (n + ruleCount left) right)
      | .coalesce => if l.isNil then eval M H (n + ruleCount left) right else pure l
      | strict => eval M H (n + ruleCount left) right >>= fun r =>
        Run.lift ((M.binary strict l r).map .data)
  | .call callee arguments =>
    evalArgs M H (n + ruleCount callee) arguments >>= fun args =>
      eval M H n callee >>= fun f => H.apply M f args
  | .conditional ternary cond exp1 exp2 =>
    eval M H n cond >>= fun v =>
      if isRequestRule (.conditional ternary cond exp1 exp2) then
        branch (H.condition (ruleFunction exp1 exp2) v)
          (H.report (n + ruleCount cond + ruleCount exp1 + ruleCount exp2)
            (eval M H (n + ruleCount cond) exp1))
          (eval M H (n + ruleCount cond + ruleCount exp1) exp2)
      else
        branch v.asBool (eval M H (n + ruleCount cond) exp1)
          (eval M H (n + ruleCount cond + ruleCount exp1) exp2)
  | .member node property =>
    eval M H n node >>= fun o => eval M H (n + ruleCount node) property >>= fun p =>
      Run.lift (H.member M o p)

def evalArgs (M : Machine F) (H : Handler F σ) (n : Nat) : List (Node F) → Run σ (List (Value F))
  | [] => pure []
  | node :: rest =>
    eval M H n node >>= fun v => evalArgs M H (n + ruleCount node) rest >>= fun vs => pure (v :: vs)

end

end TokenGateway.Expression
