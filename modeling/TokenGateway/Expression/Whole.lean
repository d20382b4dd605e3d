import TokenGateway.Expression.Machine

namespace TokenGateway.Expression

/-!
# The operators of expr-lang

The checker's rules for the operators, and an instance of them that computes: floats restricted to
whole numbers, which `float64` represents exactly up to `2 ^ 53`, with everything from `2 ^ 1024`
on counted as infinite.

* `unaryType`, `binaryType` — the types of the operators;
* `Whole` — the floats of the instance;
* `exprLang` — the machine.
-/

/-! ### Types of operators -/

/-- `isNumber` of the checker, on types that are known. -/
def Ty.isNumeric (t : Ty) : Bool := t == .int || t == .float

/-- Both operands are in a class of types, or one is and the other is unknown, or both are. -/
def bothOr (p : Ty → Bool) (l r : Ty) : Bool := (p l || l == .unknown) && (p r || r == .unknown)

/-- The type of a sum, difference or product of numbers. -/
def combined (l r : Ty) : Ty :=
  if l = .unknown ∨ r = .unknown then .unknown
  else if l = .int ∧ r = .int then .int else .float

def unaryType : UnaryOp → Ty → Option Ty
  | .not, t => if t = .bool ∨ t = .unknown then some .bool else none
  | .neg, t | .plus, t => if t.isNumeric || t == .unknown then some t else none

def binaryType (operator : BinaryOp) (l r : Ty) : Option Ty :=
  match operator with
  | .eq | .ne =>
    if l = r ∨ l = .unknown ∨ r = .unknown ∨ l = .nil ∨ r = .nil ∨ (l.isNumeric ∧ r.isNumeric) then
      some .bool
    else none
  | .or | .and => if bothOr (· == .bool) l r then some .bool else none
  | .lt | .le | .gt | .ge =>
    if bothOr Ty.isNumeric l r || bothOr (· == .str) l r then some .bool else none
  | .sub | .mul => if bothOr Ty.isNumeric l r then some (combined l r) else none
  | .div | .pow => if bothOr Ty.isNumeric l r then some .float else none
  | .mod =>
    if bothOr (· == .int) l r then some (if l = .int ∧ r = .int then .int else .unknown) else none
  | .add =>
    if bothOr Ty.isNumeric l r then some (combined l r)
    else if bothOr (· == .str) l r then some (if l = .unknown ∨
      r = .unknown then .unknown else .str)
    else none
  | .contains | .startsWith | .endsWith | .matches =>
    if bothOr (· == .str) l r then some .bool else none
  | .coalesce => some (branchType l r)
  | .membership => if r = .unknown then some .bool else none
  | .range => none

/-! ### Whole numbers as floats -/

structure Whole where
  val : Int
  deriving DecidableEq

/-- The first whole number beyond the range of `float64`. -/
def overflow : Nat := (2 ^ 128) ^ 8

theorem exact_lt_overflow : 2 ^ 53 < overflow := by decide

instance : Float64 Whole where
  ofInt i := ⟨i⟩
  mul a b := ⟨a.val * b.val⟩
  eq a b := a.val == b.val
  nonneg a := decide (0 ≤ a.val)
  isNaN _ := false
  isInf a := decide (overflow ≤ a.val.natAbs)
  max a b := ⟨max a.val b.val⟩
  min a b := ⟨min a.val b.val⟩
  abs a := ⟨a.val.natAbs⟩
  ceil a := a
  floor a := a
  eq_one x h := by
    cases x
    simp_all
  ofInt_one i h := by injection h
  one_eq := rfl
  ofInt_finite i h := by
    have hlt : i.natAbs < overflow := Nat.lt_of_le_of_lt h exact_lt_overflow
    simpa using hlt
  ofInt_nonneg i h := by simpa using h
  mul_comm a b := by rw [Int.mul_comm]
  mul_isNaN _ _ _ _ := rfl
  mul_nonneg a b _ _ ha hb := by
    simp only [decide_eq_true_eq] at ha hb ⊢
    exact Int.mul_nonneg ha hb

def Value.whole : Value Whole → Option Int
  | .data (.int i) => some i
  | .data (.float f) => some f.val
  | _ => none

/-- A number that is an integer if both operands are. -/
def number (l r : Value Whole) (i : Int) : Datum Whole :=
  match l, r with
  | .data (.int _), .data (.int _) => .int i
  | _, _ => .float ⟨i⟩

def wholeBinary (operator : BinaryOp) (l r : Value Whole) : Option (Datum Whole) :=
  match operator with
  | .eq =>
    match l.whole, r.whole with
    | some a, some b => some (.bool (a == b))
    | _, _ => some (.bool (l == r))
  | .ne =>
    match l.whole, r.whole with
    | some a, some b => some (.bool (a != b))
    | _, _ => some (.bool (l != r))
  | .mod =>
    match l, r with
    | .data (.int a), .data (.int b) => if b = 0 then none else some (.int (a.tmod b))
    | _, _ => none
  | _ =>
    match l.whole, r.whole with
    | some a, some b =>
      match operator with
      | .add => some (number l r (a + b))
      | .sub => some (number l r (a - b))
      | .mul => some (number l r (a * b))
      | .lt => some (.bool (a < b))
      | .le => some (.bool (a ≤ b))
      | .gt => some (.bool (b < a))
      | .ge => some (.bool (b ≤ a))
      | _ => none
    | _, _ => none

def wholeUnary : UnaryOp → Value Whole → Option (Datum Whole)
  | .not, .data (.bool b) => some (.bool (!b))
  | .neg, .data (.int i) => some (.int (-i))
  | .neg, .data (.float f) => some (.float ⟨-f.val⟩)
  | .plus, .data (.int i) => some (.int i)
  | .plus, .data (.float f) => some (.float f)
  | _, _ => none

/-- expr-lang on whole numbers.  A missing (nil) argument becomes the zero value of its parameter,
    anything else of another type panics. -/
def exprLang : Machine Whole where
  unaryType := unaryType
  binaryType := binaryType
  memberType _ _ := some .unknown
  unary := wholeUnary
  binary := wholeBinary
  member _ _ := some .nil
  coerce
    | _, .bool, .data .nil => some (.data (.bool false))
    | _, .int, .data .nil => some (.data (.int 0))
    | _, .float, .data .nil => some (.data (.float ⟨0⟩))
    | _, .str, .data .nil => some (.data (.str ""))
    | _, _, _ => none

end TokenGateway.Expression
