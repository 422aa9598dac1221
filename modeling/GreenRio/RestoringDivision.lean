import Mathlib.Data.Nat.Bits
import Mathlib.Data.ZMod.Defs

set_option autoImplicit false

namespace RestoringDivision

/-- Quotient and remainder after `taken` digits of the numerator, which so far read `high`. A zero
divisor always fits, so it fills the quotient with ones and leaves the numerator as remainder. -/
structure Partial (divisor high taken quotient remainder : Nat) : Prop where
  quotient_eq : quotient = if divisor = 0 then 2 ^ taken - 1 else high / divisor
  remainder_eq : remainder = high % divisor

variable {divisor high taken quotient remainder bit : Nat}

theorem start (divisor : Nat) : Partial divisor 0 0 0 0 := by
  constructor
  · split <;> simp
  · simp

theorem Partial.split (partially : Partial divisor high taken quotient remainder)
    (positive : 0 < divisor) : divisor * quotient + remainder = high ∧ remainder < divisor := by
  rw [partially.quotient_eq, partially.remainder_eq, if_neg (Nat.pos_iff_ne_zero.mp positive)]
  exact ⟨Nat.div_add_mod high divisor, Nat.mod_lt high positive⟩

/-- A quotient and a remainder that make up the numerator. -/
theorem of_split (positive : 0 < divisor) (whole : divisor * quotient + remainder = high)
    (below : remainder < divisor) : Partial divisor high taken quotient remainder := by
  subst whole
  constructor
  · rw [if_neg (Nat.pos_iff_ne_zero.mp positive), Nat.mul_add_div positive,
      Nat.div_eq_of_lt below, Nat.add_zero]
  · rw [Nat.mul_add_mod, Nat.mod_eq_of_lt below]

/-- The divisor fits below the remainder with the next digit brought down. -/
theorem Partial.fits (partially : Partial divisor high taken quotient remainder)
    (digit : bit < 2) (fits : divisor ≤ 2 * remainder + bit) :
    Partial divisor (2 * high + bit) (taken + 1) (2 * quotient + 1)
      (2 * remainder + bit - divisor) := by
  rcases Nat.eq_zero_or_pos divisor with rfl | positive
  · have power := Nat.two_pow_pos taken
    obtain ⟨rfl, rfl⟩ := partially
    constructor
    · rw [if_pos rfl, if_pos rfl, Nat.pow_succ]
      omega
    · simp
  · obtain ⟨whole, below⟩ := partially.split positive
    refine of_split positive ?_ (by omega)
    rw [Nat.mul_add, Nat.mul_left_comm, Nat.mul_one]
    omega

/-- It does not fit. -/
theorem Partial.passes (partially : Partial divisor high taken quotient remainder)
    (passes : 2 * remainder + bit < divisor) :
    Partial divisor (2 * high + bit) (taken + 1) (2 * quotient) (2 * remainder + bit) := by
  have positive : 0 < divisor := by omega
  obtain ⟨whole, -⟩ := partially.split positive
  refine of_split positive ?_ passes
  rw [Nat.mul_left_comm]
  omega

theorem Partial.remainder_le (partially : Partial divisor high taken quotient remainder) :
    remainder ≤ high := by
  rw [partially.remainder_eq]
  exact Nat.mod_le _ _

theorem Partial.quotient_lt (partially : Partial divisor high taken quotient remainder)
    (bound : high < 2 ^ taken) : quotient < 2 ^ taken := by
  rw [partially.quotient_eq]
  split
  · have power := Nat.two_pow_pos taken
    omega
  · exact Nat.lt_of_le_of_lt (Nat.div_le_self _ _) bound

/-- One more digit from the top of a numerator of `left + 1` digits that are still to come. -/
theorem high_succ (numerator left : Nat) : numerator / 2 ^ left =
    2 * (numerator / 2 ^ (left + 1)) + (numerator.testBit left).toNat := by
  have halves := Nat.div_add_mod (numerator / 2 ^ left) 2
  rw [Nat.pow_succ, ← Nat.div_div_eq_div_mul, Nat.testBit_eq_decide_div_mod_eq]
  rcases Nat.mod_two_eq_zero_or_one (numerator / 2 ^ left) with even | odd
  · rw [even] at halves ⊢
    simpa using halves.symm
  · rw [odd] at halves ⊢
    simpa using halves.symm

end RestoringDivision
