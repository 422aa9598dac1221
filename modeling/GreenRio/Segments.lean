import Mathlib.Algebra.Order.Group.Nat

set_option autoImplicit false

namespace Segments

variable (period age : Nat)

/-- Cycles 1, 2, … lie in segments of `period` cycles each, the first of which has cycle 0 too. -/
def segment : Nat := (age - 1) / period

/-- How far into its segment a cycle lies. -/
def offset : Nat := age - segment period age * period

variable {period age}

@[simp] theorem segment_zero : segment period 0 = 0 := Nat.zero_div period

@[simp] theorem offset_zero : offset period 0 = 0 := Nat.zero_sub _

theorem segment_mul_le : segment period age * period ≤ age - 1 := Nat.div_mul_le_self _ _

theorem position : segment period age * period + offset period age = age :=
  Nat.add_sub_cancel' (Nat.le_trans segment_mul_le (Nat.sub_le age 1))

theorem segment_eq {which : Nat} (low : which * period < age) (high : age ≤ (which + 1) * period) :
    segment period age = which := by
  apply Nat.div_eq_of_lt_le
  · omega
  · omega

theorem segment_le {which : Nat} (positive : 0 < period) (high : age ≤ (which + 1) * period) :
    segment period age ≤ which := by
  have some : 0 < (which + 1) * period := Nat.mul_pos (Nat.succ_pos which) positive
  apply Nat.le_of_lt_succ
  apply (Nat.div_lt_iff_lt_mul positive).mpr
  change age - 1 < (which + 1) * period
  omega

theorem le_segment {which : Nat} (positive : 0 < period) (low : which * period < age) :
    which ≤ segment period age := by
  apply (Nat.le_div_iff_mul_le positive).mpr
  omega

theorem offset_le (positive : 0 < period) : offset period age ≤ period := by
  have bound : age - 1 < period * (segment period age + 1) := Nat.lt_mul_div_succ _ positive
  rw [Nat.mul_succ, Nat.mul_comm] at bound
  rw [offset]
  omega

theorem offset_pos (some : 0 < age) : 0 < offset period age := by
  have least := @segment_mul_le period age
  rw [offset]
  omega

/-- The next cycle of the same segment. -/
theorem succ_within (inside : offset period age < period) :
    segment period (age + 1) = segment period age ∧
      offset period (age + 1) = offset period age + 1 := by
  have here := @position period age
  have there := @position period (age + 1)
  have same : segment period (age + 1) = segment period age := by
    apply segment_eq
    · omega
    · rw [Nat.succ_mul]
      omega
  rw [same] at there
  exact ⟨same, by omega⟩

/-- The first cycle of the next segment. -/
theorem succ_across (positive : 0 < period) (last : offset period age = period) :
    segment period (age + 1) = segment period age + 1 ∧ offset period (age + 1) = 1 := by
  have here := @position period age
  have there := @position period (age + 1)
  have next : segment period (age + 1) = segment period age + 1 := by
    apply segment_eq
    · rw [Nat.succ_mul]
      omega
    · rw [Nat.succ_mul, Nat.succ_mul]
      omega
  rw [next, Nat.succ_mul] at there
  exact ⟨next, by omega⟩

end Segments
