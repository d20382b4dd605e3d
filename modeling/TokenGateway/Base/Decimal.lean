import Mathlib.Algebra.Order.Field.Rat
import Mathlib.Data.Rat.Cast.Order
import Mathlib.Tactic.FieldSimp
import Mathlib.Tactic.Linarith

namespace TokenGateway.Base

/-!
# Exact decimals

Decimal numbers as an integer coefficient and a number of places, with the operations of the Go
package `shopspring/decimal` as it documents them: `Mul` is exact, `Truncate` cuts toward zero,
`Round` and `DivRound` round half away from zero, and `String` drops trailing zeros.

* `Decimal.toRat` — the number a decimal stands for;
* `Decimal.toRat_mul` — products are exact;
* `Decimal.truncate_eq_iff` — truncation of a nonnegative decimal is the integer below it.
-/

/-- The number `coef / 10 ^ scale`. -/
structure Decimal where
  coef : Int
  scale : Nat := 0
  deriving DecidableEq

namespace Decimal

def ofInt (n : Int) : Decimal := { coef := n }

def mul (a b : Decimal) : Decimal := { coef := a.coef * b.coef, scale := a.scale + b.scale }

/-- The decimal with the given number of places, cut toward zero. -/
def rescale (d : Decimal) (places : Nat) : Decimal :=
  if d.scale ≤ places then { coef := d.coef * 10 ^ (places - d.scale), scale := places }
  else { coef := d.coef.tdiv (10 ^ (d.scale - places)), scale := places }

/-- The integer part, cut toward zero. -/
def truncate (d : Decimal) : Int := (d.rescale 0).coef

def round (d : Decimal) (places : Nat) : Decimal :=
  let r := d.rescale (places + 1)
  { coef := (if r.coef < 0 then r.coef - 5 else r.coef + 5).tdiv 10, scale := places }

/-- The quotient to the given number of places, rounded half away from zero. -/
def divRound (a b : Decimal) (places : Nat) : Decimal :=
  let num := a.coef * 10 ^ (b.scale + places)
  let den := b.coef * 10 ^ a.scale
  let q := num.tdiv den
  let up := den.natAbs ≤ 2 * (num.tmod den).natAbs
  { coef := if ¬ up then q else if a.coef.sign * b.coef.sign < 0 then q - 1 else q + 1
    scale := places }

/-- Drop trailing zeros after the point. -/
def normalize (coef : Int) : Nat → Decimal
  | 0 => { coef := coef }
  | places + 1 =>
      if coef.tmod 10 = 0 then normalize (coef.tdiv 10) places
      else { coef := coef, scale := places + 1 }

/-- All digits, with exactly `scale` of them after the point. -/
def fixedText (d : Decimal) : String :=
  let n := d.coef.natAbs
  let sign := if d.coef < 0 then "-" else ""
  if d.scale = 0 then sign ++ toString n
  else
    let fraction := toString (n % 10 ^ d.scale)
    let zeros := String.ofList (List.replicate (d.scale - fraction.length) '0')
    sign ++ toString (n / 10 ^ d.scale) ++ "." ++ zeros ++ fraction

def text (d : Decimal) : String := (normalize d.coef d.scale).fixedText

/-! ### The number a decimal stands for -/

def toRat (d : Decimal) : ℚ := d.coef / 10 ^ d.scale

@[simp] theorem toRat_ofInt (n : Int) : (ofInt n).toRat = n := by
  simp [toRat, ofInt]

theorem toRat_mul (a b : Decimal) : (a.mul b).toRat = a.toRat * b.toRat := by
  unfold toRat mul
  push_cast
  rw [pow_add, mul_div_mul_comm]

/-- Truncation of a nonnegative decimal is the integer below it. -/
theorem truncate_eq_iff {d : Decimal} (hd : 0 ≤ d.coef) (n : Int) :
    d.truncate = n ↔ (n : ℚ) ≤ d.toRat ∧ d.toRat < n + 1 := by
  have hpos : (0 : Int) < 10 ^ d.scale := by positivity
  have hposRat : (0 : ℚ) < 10 ^ d.scale := by positivity
  -- on nonnegative coefficients the cut toward zero is the floor
  have hcut : d.truncate = d.coef / 10 ^ d.scale := by
    unfold truncate rescale
    by_cases hs : d.scale ≤ 0
    · have hs : d.scale = 0 := by omega
      simp [hs]
    · rw [if_neg hs]
      exact Int.tdiv_eq_ediv_of_nonneg hd
  have hlow : (n : ℚ) ≤ d.toRat ↔ n * 10 ^ d.scale ≤ d.coef := by
    unfold toRat
    rw [le_div_iff₀ hposRat]
    exact_mod_cast Iff.rfl
  have hhigh : d.toRat < n + 1 ↔ d.coef < (n + 1) * 10 ^ d.scale := by
    unfold toRat
    rw [div_lt_iff₀ hposRat]
    exact_mod_cast Iff.rfl
  rw [hlow, hhigh, ← Int.le_ediv_iff_mul_le hpos, ← Int.ediv_lt_iff_lt_mul hpos]
  omega

/-- A decimal that is cut to a positive integer is positive. -/
theorem coef_pos_of_truncate {d : Decimal} (h : 0 < d.truncate) : 0 < d.coef := by
  by_contra hneg
  have hcoef : 0 ≤ -d.coef := by omega
  unfold truncate rescale at h
  split at h
  · have hprod : 0 ≤ -d.coef * 10 ^ (0 - d.scale) := by positivity
    rw [neg_mul] at hprod
    dsimp only at h
    omega
  · have hquot : 0 ≤ (-d.coef).tdiv (10 ^ (d.scale - 0)) := Int.tdiv_nonneg hcoef (by positivity)
    rw [Int.neg_tdiv] at hquot
    dsimp only at h
    omega

end Decimal

end TokenGateway.Base
