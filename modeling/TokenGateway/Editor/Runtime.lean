import TokenGateway.Editor.Compile

namespace TokenGateway.Editor

open Base Expression

/-!
# The editor's runtime

`runtime.ts`: the editor evaluates billing expressions itself, to show what a request would cost.

* `Arithmetic`, `Browser` — what the runtime takes from JavaScript;
* `Json`, `readRequestPath` — request bodies and the supported part of the paths into them;
* `BillingRuntime` — the state of an evaluation;
* `unary`, `binary`, `callEffect`, `evaluate` — operators, functions and trees;
* `evaluateBillingExpression` — the whole.

A number is an integer (`integer: true`) or a float; the two are told apart by `%` only.  Zero has
one sign.  A failed evaluation reports a diagnostic instead of a cost and is `none` here, and the
limit on the depth of an evaluation, which only makes more of them fail, is left out.
-/

/-- `Number.isSafeInteger`, on integers. -/
def isSafeInteger (i : Int) : Bool := decide (i.natAbs < 2 ^ 53)

/-- Numbers of JavaScript: floats, exact on integers up to `2 ^ 53`. -/
class Arithmetic (F : Type) extends Float64 F where
  (add sub div : F → F → F)
  neg : F → F
  (lt le : F → F → Bool)
  add_ofInt : ∀ i j, isSafeInteger i = true → isSafeInteger j = true →
    isSafeInteger (i + j) = true → add (ofInt i) (ofInt j) = ofInt (i + j)
  sub_ofInt : ∀ i j, isSafeInteger i = true → isSafeInteger j = true →
    isSafeInteger (i - j) = true → sub (ofInt i) (ofInt j) = ofInt (i - j)
  mul_ofInt : ∀ i j, isSafeInteger i = true → isSafeInteger j = true →
    isSafeInteger (i * j) = true → mul (ofInt i) (ofInt j) = ofInt (i * j)
  neg_ofInt : ∀ i, isSafeInteger i = true → neg (ofInt i) = ofInt (-i)

/-! ### Text -/

/-- White space and line terminators. -/
def isJsSpace (c : Char) : Bool :=
  let n := c.toNat
  (9 ≤ n && n ≤ 13) || n == 0x20 || n == 0xA0 || n == 0x1680 || (0x2000 ≤ n && n ≤ 0x200A) ||
    n == 0x2028 || n == 0x2029 || n == 0x202F || n == 0x205F || n == 0x3000 || n == 0xFEFF

/-- `String.prototype.trim`. -/
def jsTrim (s : String) : String := trimText isJsSpace s

/-! ### Request bodies -/

inductive Json (F : Type) where
  | null
  | boolean (b : Bool)
  | number (f : F)
  | string (s : String)
  | array (items : List (Json F))
  | object (members : List (String × Json F))

structure Browser (F : Type) where
  /-- `<` and `<=` on strings. -/
  (textLt textLe : String → String → Bool)
  toLowerCase : String → String
  /-- `billingString` of a finite number. -/
  numberText : F → String
  /-- The canonical text of an array or object. -/
  canonical : Json F → String
  /-- `billingString` of an array or object, unless it is too deep or holds an infinite number. -/
  jsonText : String → Option String
  /-- The instant of the evaluation in UTC, and in a zone that `Intl` knows under this name. -/
  utc : Civil
  zone : String → Option Civil

variable {F : Type}

/-- The keys of a path: `.` separates them and `\` takes the next character as it is. -/
def pathParts (part : List Char) : List Char → Option (List String)
  | [] => some [String.ofList part]
  | ['\\'] => none
  | '\\' :: c :: rest => pathParts (part ++ [c]) rest
  | '.' :: rest => (pathParts [] rest).map (String.ofList part :: ·)
  | c :: rest => if "*?[]()|@!".toList.contains c then none else pathParts (part ++ [c]) rest

/-- The number that a key of digits denotes. -/
def arrayIndex (key : String) : Option Nat :=
  if key ≠ "" ∧ key.toList.all Char.isDigit then
    some (key.toList.foldl (fun n c => 10 * n + (c.toNat - '0'.toNat)) 0)
  else none

/-- Follow the keys; a missing member is null. -/
def followPath [Float64 F] : List String → Json F → Option (Json F)
  | [], value => some value
  | key :: rest, .array items =>
    if key == "#" then
      if rest.isEmpty then some (.number (Float64.ofInt items.length)) else none
    else
      match (arrayIndex key).bind fun index => items[index]? with
      | some item => followPath rest item
      | none => some .null
  | key :: rest, .object members =>
    match members.lookup key with
    | some value => followPath rest value
    | none => some .null
  | _ :: _, _ => some .null

variable (B : Browser F)

def Browser.datum : Json F → Datum F
  | .null => .nil
  | .boolean b => .bool b
  | .number f => .float f
  | .string s => .str s
  | value => .json (B.canonical value)

/-- `readRequestPath`, for a path without white space around it. -/
def followRequestPath [Float64 F] (body : Option (Json F)) (path : String) : Option (Datum F) :=
  if path == "" then some .nil
  else (pathParts [] path.toList).bind fun parts => (followPath parts (body.getD .null)).map B.datum

/-! ### The state of an evaluation -/

/-- `BillingSimulationContext`. -/
structure Request (F : Type) where
  body : Option (Json F)
  headers : List (String × String)

structure Context (F : Type) where
  imageCount : Option Int
  tokens : Variable → Option F
  request : Option (Request F)
  usage : Option (List (String × Datum F))

/-- `BillingRequestRule`, without the text of its condition. -/
structure BillingRequestRule (F : Type) where
  multiplier : F
  matched : Bool
  deriving DecidableEq

/-- A call that has been made: the function, its arguments and their values. -/
structure FunctionCall (F : Type) where
  name : BillingFunction
  args : List (ExpressionNode F)
  values : List (Datum F)

/-- `BillingRuntime`, as far as an evaluation changes it.  `calls` is not part of the source: it
    lists the calls that were made, for statements about them. -/
structure BillingRuntime (F : Type) where
  requestRules : List (BillingRequestRule F)
  matchedTier : String := ""
  billingUnit : BillingUnit := .token
  fixedPrice : Option F := none
  calls : List (FunctionCall F) := []

/-- `this.headers`: a repeated name keeps its last value. -/
def runtimeHeaders (headers : List (String × String)) : List (String × String) :=
  headers.foldl (fun map header =>
    let key := B.toLowerCase (jsTrim header.1)
    let value := jsTrim header.2
    if key == "" || value == "" then map else (key, value) :: map) []

def timeInBillingZone (zone : String) : Option Civil :=
  let timezone := if jsTrim zone == "" then "UTC" else jsTrim zone
  if timezone == "Local" then none else some ((B.zone timezone).getD B.utc)

/-- The rule with this index is marked as matched. -/
def markRule (index : Option Nat) (runtime : BillingRuntime F) : BillingRuntime F :=
  match index with
  | some index =>
    { runtime with
      requestRules := runtime.requestRules.modify index fun rule => { rule with matched := true } }
  | none => runtime

/-! ### Values and operators -/

variable [Arithmetic F]

def numeric : Datum F → Option F
  | .int i => some (Float64.ofInt i)
  | .float f => some f
  | _ => none

def boolean : Datum F → Option Bool
  | .bool b => some b
  | _ => none

/-- What `evaluate` asks of every value: numbers are finite, integers are safe. -/
def checked : Datum F → Option (Datum F)
  | .float f => if Float64.isNaN f || Float64.isInf f then none else some (.float f)
  | .int i => if isSafeInteger i then some (.int i) else none
  | value => some value

def isNull : Datum F → Bool
  | .nil => true
  | _ => false

def isObject : Datum F → Bool
  | .json _ => true
  | _ => false

/-- `===`, on values of which none is an object. -/
def strictEquals (a b : Datum F) : Bool :=
  match numeric a, numeric b with
  | some x, some y => Float64.eq x y
  | _, _ =>
    match a, b with
    | .nil, .nil => true
    | .bool x, .bool y => x == y
    | .str x, .str y => x == y
    | _, _ => false

/-- `==`, as the runtime supports it. -/
def equals (a b : Datum F) : Option Bool :=
  match a, b with
  | .nil, _ | _, .nil => some (strictEquals a b)
  | _, _ => if isObject a || isObject b then none else some (strictEquals a b)

/-- A comparison, on two numbers or two strings. -/
def compare (numbers : F → F → Bool) (texts : String → String → Bool) (a b : Datum F) :
    Option Bool :=
  match a, b with
  | .str x, .str y => some (texts x y)
  | _, _ =>
    match numeric a, numeric b with
    | some x, some y => some (numbers x y)
    | _, _ => none

/-- An operation that keeps integers. -/
def arithmetic (ints : Int → Int → Int) (floats : F → F → F) (a b : Datum F) : Option (Datum F) :=
  match a, b with
  | .int i, .int j => some (.int (ints i j))
  | _, _ =>
    match numeric a, numeric b with
    | some x, some y => some (.float (floats x y))
    | _, _ => none

/-- The strict operators.  `&&` and `||` are evaluated by `evaluate`. -/
def binary (operator : Operator) (a b : Datum F) : Option (Datum F) :=
  match operator with
  | .or | .and => none
  | .eq => (equals a b).map .bool
  | .ne => (equals a b).map fun equal => .bool !equal
  | .lt => (compare Arithmetic.lt B.textLt a b).map .bool
  | .le => (compare Arithmetic.le B.textLe a b).map .bool
  | .gt => (compare (fun x y => Arithmetic.lt y x) (fun x y => B.textLt y x) a b).map .bool
  | .ge => (compare (fun x y => Arithmetic.le y x) (fun x y => B.textLe y x) a b).map .bool
  | .add =>
    match a, b with
    | .str x, .str y => some (.str (x ++ y))
    | _, _ => arithmetic (· + ·) Arithmetic.add a b
  | .sub => arithmetic (· - ·) Arithmetic.sub a b
  | .mul => arithmetic (· * ·) Float64.mul a b
  | .div => (numeric a).bind fun x => (numeric b).map fun y => .float (Arithmetic.div x y)
  | .mod =>
    match a, b with
    -- the remainder of a division by zero is not a number, which `evaluate` rejects
    | .int i, .int j => if j = 0 then none else some (.int (i.tmod j))
    | _, _ => none

def unary (operator : UnaryOp) (a : Datum F) : Option (Datum F) :=
  match operator, a with
  | .not, .bool b => some (.bool !b)
  | .neg, .int i => some (.int (-i))
  | .neg, .float f => some (.float (Arithmetic.neg f))
  | .plus, .int i => some (.int i)
  | .plus, .float f => some (.float f)
  | _, _ => none

/-! ### Functions -/

def billingString : Datum F → Option String
  | .nil => some "<nil>"
  | .bool b => some (if b then "true" else "false")
  | .int i => some (B.numberText (Float64.ofInt i))
  | .float f => some (B.numberText f)
  | .str s => some s
  | .json canonical => B.jsonText canonical

/-- What a function does: its result and what it writes. -/
structure CallEffect (F : Type) where
  result : Datum F
  write : BillingRuntime F → BillingRuntime F := id

/-- `tier`. -/
def tierCall (name : String) (value : F) : CallEffect F where
  result := .float value
  write runtime := { runtime with matchedTier := name }

/-- `fixed`. -/
def fixedCall (amount : F) : CallEffect F where
  result := .float (Float64.mul amount million)
  write runtime := { runtime with billingUnit := .request, fixedPrice := some amount }

/-- `has`. -/
def hasCall (source : Datum F) (substring : String) : Option (CallEffect F) :=
  if isNull source || substring == "" then some { result := .bool false }
  else (billingString B source).map fun text => { result := .bool (containsText text substring) }

/-- One of the five time functions. -/
def timeCall (field : Civil → Int) (zone : String) : Option (CallEffect F) :=
  (timeInBillingZone B zone).map fun time => { result := .int (field time) }

/-- A function of one number, and of two. -/
def mathCall (f : F → F) (a : Datum F) : Option (CallEffect F) :=
  (numeric a).map fun x => { result := .float (f x) }

def mathCall₂ (f : F → F → F) (a b : Datum F) : Option (CallEffect F) :=
  (numeric a).bind fun x => (numeric b).map fun y => { result := .float (f x y) }

variable (context : Context F)

def callEffect :
    BillingFunction → List (Datum F) → Option (CallEffect F)
  | .fixed, [amount] => (numeric amount).map fixedCall
  | .tier, [.str name, value] => (numeric value).map (tierCall name)
  | .param, [.str path] => context.request.bind fun request =>
    (followRequestPath B request.body (jsTrim path)).map fun value => { result := value }
  | .header, [.str name] => context.request.map fun request =>
    { result := .str (((runtimeHeaders B request.headers).lookup
        (B.toLowerCase (jsTrim name))).getD "") }
  | .u, [.str name] => context.usage.map fun usage => { result := (usage.lookup name).getD .nil }
  | .has, [source, .str substring] => hasCall B source substring
  | .min, [a, b] => mathCall₂ Float64.min a b
  | .max, [a, b] => mathCall₂ Float64.max a b
  | .abs, [a] => mathCall Float64.abs a
  | .floor, [a] => mathCall Float64.floor a
  | .ceil, [a] => mathCall Float64.ceil a
  | .hour, [.str zone] => timeCall B Civil.hour zone
  | .minute, [.str zone] => timeCall B Civil.minute zone
  | .weekday, [.str zone] => timeCall B Civil.weekday zone
  | .month, [.str zone] => timeCall B Civil.month zone
  | .day, [.str zone] => timeCall B Civil.day zone
  | _, _ => none

def callFunction (name : BillingFunction)
    (args : List (ExpressionNode F)) (values : List (Datum F)) :
    Run (BillingRuntime F) (Datum F) := fun runtime =>
  match callEffect B context name values with
  | none => (none, runtime)
  | some effect =>
    (some effect.result,
      { effect.write runtime with calls := ⟨name, args, values⟩ :: runtime.calls })

/-! ### Evaluation -/

def Literal.datum : Literal F → Datum F
  | .null => .nil
  | .boolean b => .bool b
  | .integer i => .int i
  | .decimal f => .float f
  | .string s => .str s

/-- The value of a variable; the image count is checked when it is read. -/
def readVariable (context : Context F) : Variable → Option F
  | .imageCount =>
    let value := context.imageCount.getD 1
    if value < 1 ∨ 128 < value then none else some (Float64.ofInt value)
  | name => (context.tokens name).filter Float64.nonneg

/-- The check at the end of `evaluate`. -/
def check (x : Run (BillingRuntime F) (Datum F)) : Run (BillingRuntime F) (Datum F) :=
  x >>= fun value => Run.lift (checked value)

def mark (index : Option Nat) : Run (BillingRuntime F) Unit := fun runtime =>
  (some (), markRule index runtime)

variable (rules : List (RequestRule F))

mutual

/-- `evaluate`, of the node at a place of the tree with these rules. -/
def evaluate (path : List Nat) : ExpressionNode F → Run (BillingRuntime F) (Datum F)
  | .literal value => check (pure value.datum)
  | .variable name => check (Run.lift ((readVariable context name).map .float))
  | .conditional condition yes no => check do
    let value ← evaluate (path ++ [0]) condition
    let holds ← Run.lift (boolean value)
    if holds then do
      mark (rules.findIdx? (·.node == path))
      evaluate (path ++ [1]) yes
    else evaluate (path ++ [2]) no
  | .unary operator operand => check do
    let value ← evaluate (path ++ [0]) operand
    Run.lift (unary operator value)
  | .binary .and left right => check do
    let l ← evaluate (path ++ [0]) left
    let holds ← Run.lift (boolean l)
    if holds then do
      let r ← evaluate (path ++ [1]) right
      Run.lift ((boolean r).map .bool)
    else pure (.bool false)
  | .binary .or left right => check do
    let l ← evaluate (path ++ [0]) left
    let holds ← Run.lift (boolean l)
    if holds then pure (.bool true)
    else do
      let r ← evaluate (path ++ [1]) right
      Run.lift ((boolean r).map .bool)
  | .binary operator left right => check do
    let l ← evaluate (path ++ [0]) left
    let r ← evaluate (path ++ [1]) right
    Run.lift (binary B operator l r)
  | .call name args => check do
    let values ← evaluateArgs path 0 args
    callFunction B context name args values

def evaluateArgs (path : List Nat) (i : Nat) :
    List (ExpressionNode F) → Run (BillingRuntime F) (List (Datum F))
  | [] => pure []
  | node :: rest => do
    let value ← evaluate (path ++ [i]) node
    let values ← evaluateArgs path (i + 1) rest
    pure (value :: values)

end

/-! ### The whole -/

/-- A successful `BillingEvaluationResult`. -/
structure Evaluation (F : Type) where
  cost : F
  billingUnit : BillingUnit
  fixedPrice : Option F
  imageCount : Option Int
  matchedTier : String
  requestRules : List (BillingRequestRule F)

def tokenVariables : List Variable := [.p, .c, .len, .cr, .cc, .cc1h, .img, .imgCR, .imgO, .ai, .ao]

/-- A finite, non-negative number. -/
def isAmount (x : F) : Bool := !Float64.isNaN x && !Float64.isInf x && Float64.nonneg x

/-- The runtime an evaluation starts with. -/
def initialRuntime (rules : List (RequestRule F)) : BillingRuntime F where
  requestRules := rules.map fun rule => ⟨rule.multiplier, false⟩

/-- The evaluation of the tree, from the start. -/
def runTree (B : Browser F) (ast : ExpressionNode F) (context : Context F) :
    Option (Datum F) × BillingRuntime F :=
  evaluate B context (requestRules [] ast) [] ast (initialRuntime (requestRules [] ast))

def evaluateBillingExpression (B : Browser F) (ast : ExpressionNode F) (context : Context F) :
    Option (Evaluation F) :=
  if tokenVariables.all fun name => (context.tokens name).all isAmount then
    let run := runTree B ast context
    (run.1.bind numeric).bind fun cost =>
      if isAmount cost then
        some {
          cost
          billingUnit := run.2.billingUnit
          fixedPrice := run.2.fixedPrice
          imageCount := if reads .imageCount ast then some (context.imageCount.getD 1) else none
          matchedTier := run.2.matchedTier
          requestRules := run.2.requestRules }
      else none
  else none

end TokenGateway.Editor
