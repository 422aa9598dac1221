import Mathlib.Data.ZMod.Defs
import Mathlib.Tactic.Linarith
import Mathlib.Tactic.Ring

set_option autoImplicit false

namespace ColumnProduct

/-- Four digits to the base `2 ^ 16`, of which the highest may be negative. -/
structure Digits where
  d0 : Int
  d1 : Int
  d2 : Int
  d3 : Int
  range0 : 0 ≤ d0 ∧ d0 < 2 ^ 16
  range1 : 0 ≤ d1 ∧ d1 < 2 ^ 16
  range2 : 0 ≤ d2 ∧ d2 < 2 ^ 16
  range3 : -2 ^ 15 ≤ d3 ∧ d3 < 2 ^ 16

namespace Digits

def value (x : Digits) : Int := x.d0 + 2 ^ 16 * x.d1 + 2 ^ 32 * x.d2 + 2 ^ 48 * x.d3

end Digits

/-- A digit product: it is negative by half as much as it can be positive. -/
def Small (p : Int) : Prop := -2 ^ 31 ≤ p ∧ p ≤ (2 ^ 16 - 1) * (2 ^ 16 - 1)

theorem small_mul {x y : Int} (left : -2 ^ 15 ≤ x ∧ x < 2 ^ 16) (right : -2 ^ 15 ≤ y ∧ y < 2 ^ 16) :
    Small (x * y) := by
  obtain ⟨lowX, highX⟩ := left
  obtain ⟨lowY, highY⟩ := right
  constructor <;> rcases le_total 0 x with - | signX <;> rcases le_total 0 y with signY | signY <;>
    nlinarith

variable (x y : Digits)

/-- The sums of the seven columns: each adds its products to what the one before carries. -/
def sum0 : Int := x.d0 * y.d0
def sum1 : Int := sum0 x y / 2 ^ 16 + x.d1 * y.d0 + x.d0 * y.d1
def sum2 : Int := sum1 x y / 2 ^ 16 + x.d0 * y.d2 + x.d1 * y.d1 + x.d2 * y.d0
def sum3 : Int :=
  sum2 x y / 2 ^ 16 + x.d3 * y.d0 + x.d2 * y.d1 + x.d1 * y.d2 + x.d0 * y.d3
def sum4 : Int := sum3 x y / 2 ^ 16 + x.d1 * y.d3 + x.d2 * y.d2 + x.d3 * y.d1
def sum5 : Int := sum4 x y / 2 ^ 16 + x.d3 * y.d2 + x.d2 * y.d3
def sum6 : Int := sum5 x y / 2 ^ 16 + x.d3 * y.d3

/-- The digits that the columns put out. -/
def lowHalf : Int :=
  sum0 x y % 2 ^ 16 + 2 ^ 16 * (sum1 x y % 2 ^ 16) + 2 ^ 32 * (sum2 x y % 2 ^ 16) +
    2 ^ 48 * (sum3 x y % 2 ^ 16)

def highHalf : Int :=
  sum4 x y % 2 ^ 16 + 2 ^ 16 * (sum5 x y % 2 ^ 16) + 2 ^ 32 * sum6 x y

/-- The columns add up to the product. -/
theorem product_eq : x.value * y.value = lowHalf x y + 2 ^ 64 * highHalf x y := by
  have columns : x.value * y.value =
      x.d0 * y.d0 + 2 ^ 16 * (x.d1 * y.d0 + x.d0 * y.d1) +
        2 ^ 32 * (x.d0 * y.d2 + x.d1 * y.d1 + x.d2 * y.d0) +
        2 ^ 48 * (x.d3 * y.d0 + x.d2 * y.d1 + x.d1 * y.d2 + x.d0 * y.d3) +
        2 ^ 64 * (x.d1 * y.d3 + x.d2 * y.d2 + x.d3 * y.d1 +
          2 ^ 16 * (x.d3 * y.d2 + x.d2 * y.d3) + 2 ^ 32 * (x.d3 * y.d3)) := by
    unfold Digits.value
    ring
  rw [columns]
  unfold lowHalf highHalf sum6 sum5 sum4 sum3 sum2 sum1 sum0
  omega

theorem lowHalf_range : 0 ≤ lowHalf x y ∧ lowHalf x y < 2 ^ 64 := by
  unfold lowHalf
  omega

theorem product_mod : x.value * y.value % 2 ^ 64 = lowHalf x y := by
  have range := lowHalf_range x y
  rw [product_eq]
  omega

theorem product_div : x.value * y.value / 2 ^ 64 = highHalf x y := by
  have range := lowHalf_range x y
  rw [product_eq]
  omega

end ColumnProduct
