import TokenGateway.Expression.Compiled

namespace TokenGateway.Expression

open Base

/-!
# The functions of the environment

`runProgram` (`pkg/billingexpr/run.go`): the functions an expression can call, the trace they
write, and the run of a compiled program.

* `Platform` — what the run takes from Go's libraries and the clock;
* `RequestInput`, `TokenParams`, `TraceResult` — its inputs and its trace;
* `hostEffect`, `hostCall` — the functions, by name;
* `runProgram` — the image count is checked, then the program runs.

A Go map is listed in the order in which it is ranged over.
-/

variable {F : Type}

/-! ### Text -/

def isSpace (c : Char) : Bool :=
  let n := c.toNat
  (9 ≤ n && n ≤ 13) || n == 0x20 || n == 0x85 || n == 0xA0 || n == 0x1680 ||
    (0x2000 ≤ n && n ≤ 0x200A) || n == 0x2028 || n == 0x2029 || n == 0x202F || n == 0x205F ||
    n == 0x3000

/-- A text without the characters of a class at its two ends. -/
def trimText (space : Char → Bool) (s : String) : String :=
  String.ofList (((s.toList.dropWhile space).reverse.dropWhile space).reverse)

def trimSpace (s : String) : String := trimText isSpace s

/-- `strings.Contains`. -/
def containsText (s sub : String) : Bool := decide (sub.toList <:+: s.toList)

/-! ### Inputs and trace -/

/-- A civil time. -/
structure Civil where
  (hour minute weekday month day : Int)
  deriving DecidableEq

structure Platform (F : Type) where
  /-- `strings.ToLower`. -/
  toLower : String → String
  /-- `fmt.Sprint`. -/
  sprint : Value F → String
  /-- `time.Now().UTC()`. -/
  utc : Civil
  /-- `time.Now().In(loc)` for a zone that `time.LoadLocation` knows. -/
  zone : String → Option Civil

/-- `RequestInput`.  A request body is what `gjson` finds in it; `none` is an empty one. -/
structure RequestInput (F : Type) where
  headers : List (String × String) := []
  body : Option (String → Option (Datum F)) := none
  usage : Option (List (String × Datum F)) := none
  imageCount : Option Int := none

structure TokenParams (F : Type) where
  (p c len cr cc cc1h img imgCR imgO ai ao : F)

inductive BillingUnit where
  | token | request
  deriving DecidableEq

structure TraceResult (F : Type) where
  imageCount : Option Int := none
  billingUnit : BillingUnit := .token
  fixedPrice : Option F := none
  matchedTier : String := ""
  requestRules : List (RequestRuleTrace F) := []
  cost : F

/-! ### The functions -/

def normalizeHeaders (P : Platform F) (headers : List (String × String)) : List (String × String) :=
  headers.foldl (fun normalized header =>
    let k := P.toLower (trimSpace header.1)
    let v := trimSpace header.2
    -- the newest entry comes first, so that a repeated name is overwritten
    if k == "" || v == "" then normalized else (k, v) :: normalized) []

def timeInZone (P : Platform F) (tz : String) : Civil :=
  let tz := trimSpace tz
  if tz == "" then P.utc else (P.zone tz).getD P.utc

/-- The rule with this index is marked as matched, if there is one. -/
def markMatched (ruleIndex : Int) (trace : TraceResult F) : TraceResult F :=
  if 0 ≤ ruleIndex then
    { trace with
      requestRules := trace.requestRules.modify ruleIndex.toNat fun rule =>
        { rule with matched := true } }
  else trace

/-- What a function does: its result and what it writes to the trace. -/
structure Effect (F : Type) where
  result : Datum F
  write : TraceResult F → TraceResult F := id

variable [Float64 F]

/-- `1_000_000`. -/
def million : F := Float64.ofInt 1000000

/-- `tier`. -/
def tierEffect (name : String) (value : F) : Effect F where
  result := .float value
  write trace := { trace with matchedTier := name, cost := value }

/-- `fixed`. -/
def fixedEffect (amount : F) : Effect F where
  result := .float (Float64.mul amount million)
  write trace := { trace with billingUnit := .request, fixedPrice := some amount }

/-- `_trace` and `_trace_int`. -/
def traceRule (ruleIndex : Int) (isMatched : Bool) (multiplier one : Datum F) : Effect F :=
  if isMatched then { result := multiplier, write := markMatched ruleIndex } else { result := one }

/-- The functions of the environment, on arguments of their parameters' types. -/
def hostEffect (P : Platform F) (headers : List (String × String)) (request : RequestInput F) :
    HostFunction → List (Value F) → Option (Effect F)
  | .tier, [.data (.str name), .data (.float value)] => some (tierEffect name value)
  | .fixed, [.data (.float amount)] => some (fixedEffect amount)
  | .trace, [.data (.int ruleIndex), .data (.bool isMatched), .data (.float multiplier)] =>
    some (traceRule ruleIndex isMatched (.float multiplier) (.float (Float64.ofInt 1)))
  | .traceInt, [.data (.int ruleIndex), .data (.bool isMatched), .data (.int multiplier)] =>
    some (traceRule ruleIndex isMatched (.int multiplier) (.int 1))
  | .header, [.data (.str key)] =>
    some { result := .str ((headers.lookup (P.toLower (trimSpace key))).getD "") }
  | .param, [.data (.str path)] =>
    some { result := if trimSpace path == "" then .nil else
      match request.body with
      | none => .nil
      | some gjson => (gjson (trimSpace path)).getD .nil }
  | .u, [.data (.str name)] =>
    some { result := match request.usage with
      | none => .nil
      | some facts => (facts.lookup (trimSpace name)).getD .nil }
  | .has, [source, .data (.str substr)] =>
    some { result := .bool (if source.isNil || substr == "" then false
      else containsText (P.sprint source) substr) }
  | .hour, [.data (.str tz)] => some { result := .int (timeInZone P tz).hour }
  | .minute, [.data (.str tz)] => some { result := .int (timeInZone P tz).minute }
  | .weekday, [.data (.str tz)] => some { result := .int (timeInZone P tz).weekday }
  | .month, [.data (.str tz)] => some { result := .int (timeInZone P tz).month }
  | .day, [.data (.str tz)] => some { result := .int (timeInZone P tz).day }
  | .max, [.data (.float a), .data (.float b)] => some { result := .float (Float64.max a b) }
  | .min, [.data (.float a), .data (.float b)] => some { result := .float (Float64.min a b) }
  | .abs, [.data (.float a)] => some { result := .float (Float64.abs a) }
  | .ceil, [.data (.float a)] => some { result := .float (Float64.ceil a) }
  | .floor, [.data (.float a)] => some { result := .float (Float64.floor a) }
  | _, _ => none

/-- The three kinds of functions that write to the trace; the others leave it alone. -/
theorem hostEffect_cases {P : Platform F} {headers : List (String × String)}
    {request : RequestInput F} {f : HostFunction} {args : List (Value F)} {effect : Effect F}
    (h : hostEffect P headers request f args = some effect) :
    (f = .tier ∧ ∃ name value, args = [.data (.str name), .data (.float value)] ∧
      effect = tierEffect name value) ∨
      (f = .fixed ∧ ∃ amount, args = [.data (.float amount)] ∧ effect = fixedEffect amount) ∨
      ((f = .trace ∨ f = .traceInt) ∧ ∃ index isMatched multiplier one,
        effect = traceRule index isMatched multiplier one) ∨
      (f ≠ .tier ∧ f ≠ .fixed ∧ effect.write = id) := by
  unfold hostEffect at h
  split at h
  case h_1 name value => exact .inl ⟨rfl, name, value, rfl, (Option.some.inj h).symm⟩
  case h_2 amount => exact .inr (.inl ⟨rfl, amount, rfl, (Option.some.inj h).symm⟩)
  case h_3 => exact .inr (.inr (.inl ⟨.inl rfl, _, _, _, _, (Option.some.inj h).symm⟩))
  case h_4 => exact .inr (.inr (.inl ⟨.inr rfl, _, _, _, _, (Option.some.inj h).symm⟩))
  case h_19 => cases h
  all_goals exact .inr (.inr (.inr ⟨nofun, nofun, by rw [← Option.some.inj h]⟩))

/-- The call of a function of the environment. -/
def hostCall (P : Platform F) (headers : List (String × String)) (request : RequestInput F)
    (f : HostFunction) (args : List (Value F)) : Run (TraceResult F) (Datum F) := fun trace =>
  match hostEffect P headers request f args with
  | none => (none, trace)
  | some effect => (some effect.result, effect.write trace)

/-- The variables of the environment. -/
def variableValue (params : TokenParams F) (imageCount : Int) : Variable → F
  | .imageCount => Float64.ofInt imageCount
  | .p => params.p
  | .c => params.c
  | .len => params.len
  | .cr => params.cr
  | .cc => params.cc
  | .cc1h => params.cc1h
  | .img => params.img
  | .imgCR => params.imgCR
  | .imgO => params.imgO
  | .ai => params.ai
  | .ao => params.ao

/-- The environment of a run.  The program itself knows no request rules: a condition that is not
    a boolean fails, and matches are recorded by the functions only. -/
def environment (P : Platform F) (params : TokenParams F) (request : RequestInput F)
    (imageCount : Int) : Handler F (TraceResult F) where
  value := variableValue params imageCount
  call := hostCall P (normalizeHeaders P request.headers) request
  condition _ v := v.asBool
  matched _ trace := trace

/-! ### The run -/

def maxImageN : Int := 128

inductive RunError where
  /-- `image_count must be between 1 and 128`. -/
  | imageCount
  /-- `expr run error: …`. -/
  | exprRun
  deriving DecidableEq

/-- The image count a program runs with, if it is admissible; a program that does not name
    `image_count` is not checked. -/
def imageCountFor (usesImageCount : Bool) (request : RequestInput F) : Option Int :=
  if usesImageCount then
    let imageCount := request.imageCount.getD 1
    if imageCount < 1 ∨ maxImageN < imageCount then none else some imageCount
  else some 1

/-- `usedVars["image_count"]`. -/
def usesImageCount (prog : Node F) : Bool := prog.mentions (· == "image_count")

def initialTrace (usesCount : Bool) (imageCount : Int) (rules : List (RequestRuleTrace F)) :
    TraceResult F where
  imageCount := if usesCount then some imageCount else none
  requestRules := rules
  cost := Float64.ofInt 0

/-- A program's run and the cast of its result. -/
def runFloat {σ : Type} (M : Machine F) (H : Handler F σ) (prog : Node F) : Run σ F :=
  eval M H 0 prog >>= fun v => Run.lift v.asFloat

def runProgram (M : Machine F) (P : Platform F) (prog : Node F)
    (requestRules : List (RequestRuleTrace F)) (params : TokenParams F)
    (request : RequestInput F) : Except RunError F × TraceResult F :=
  match imageCountFor (usesImageCount prog) request with
  | none => (.error .imageCount, initialTrace false 1 requestRules)
  | some imageCount =>
    let out := runFloat M (environment P params request imageCount) prog
      (initialTrace (usesImageCount prog) imageCount requestRules)
    match out.1 with
    | none => (.error .exprRun, out.2)
    | some f => (.ok f, out.2)

end TokenGateway.Expression
