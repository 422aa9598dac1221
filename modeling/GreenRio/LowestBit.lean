import Mathlib.Data.Nat.Bitwise
import Mathlib.Data.ZMod.Defs

set_option autoImplicit false

namespace LowestBit

variable {width : Nat} (word : BitVec width)

/-- The word without its lowest one. -/
def clear : BitVec width := word &&& (word - BitVec.ofNat width 1)

/-- The word with ones below its lowest one, in every place if there is none. -/
def fill : BitVec width := word ||| (word - BitVec.ofNat width 1)

/-- Below the lowest one the predecessor has ones. -/
theorem getLsbD_pred_low {bit : Nat} (inside : bit < width)
    (zeros : ∀ place ≤ bit, word.getLsbD place = false) :
    (word - BitVec.ofNat width 1).getLsbD bit = true := by
  have multiple : word.toNat % 2 ^ (bit + 1) = 0 := by
    apply Nat.eq_of_testBit_eq
    intro place
    rw [Nat.testBit_mod_two_pow, Nat.zero_testBit]
    by_cases low : place < bit + 1
    · rw [← BitVec.getLsbD, zeros place (by omega), Bool.and_false]
    · rw [decide_eq_false low, Bool.false_and]
  obtain ⟨quotient, value⟩ := Nat.dvd_of_mod_eq_zero multiple
  have one : (BitVec.ofNat width 1).toNat = 1 := by
    rw [BitVec.toNat_ofNat, Nat.mod_eq_of_lt (Nat.one_lt_two_pow (by omega))]
  have power : 2 ^ width = 2 ^ (bit + 1) * 2 ^ (width - (bit + 1)) := by
    rw [← Nat.pow_add]
    congr 1
    omega
  have lower : 0 < 2 ^ (bit + 1) := Nat.two_pow_pos _
  have upper : 0 < 2 ^ (width - (bit + 1)) := Nat.two_pow_pos _
  have split : 2 ^ width - 1 + word.toNat =
      2 ^ (bit + 1) * (2 ^ (width - (bit + 1)) - 1 + quotient) + (2 ^ (bit + 1) - 1) := by
    have whole : 2 ^ (bit + 1) ≤ 2 ^ (bit + 1) * 2 ^ (width - (bit + 1)) :=
      Nat.le_mul_of_pos_right _ upper
    rw [value, power, Nat.mul_add, Nat.mul_sub, Nat.mul_one]
    omega
  rw [BitVec.getLsbD, BitVec.toNat_sub, one, Nat.testBit_mod_two_pow, decide_eq_true inside,
    Bool.true_and, split, Nat.testBit_two_pow_mul_add _ (by omega), if_pos (Nat.lt_succ_self bit),
    Nat.testBit_two_pow_sub_one, decide_eq_true (Nat.lt_succ_self bit)]

/-- Above it nothing changes. -/
theorem getLsbD_pred_high {low bit : Nat} (inside : bit < width) (below : low < bit)
    (one : word.getLsbD low = true) :
    (word - BitVec.ofNat width 1).getLsbD bit = word.getLsbD bit := by
  have unit : (BitVec.ofNat width 1).toNat = 1 := by
    rw [BitVec.toNat_ofNat, Nat.mod_eq_of_lt (Nat.one_lt_two_pow (by omega))]
  have rest : 0 < word.toNat % 2 ^ bit := by
    rw [Nat.pos_iff_ne_zero]
    intro zero
    have bits := congrArg (fun value => value.testBit low) zero
    simp only [Nat.testBit_mod_two_pow, Nat.zero_testBit, decide_eq_true below,
      Bool.true_and] at bits
    rw [BitVec.getLsbD, bits] at one
    cases one
  have value := Nat.div_add_mod word.toNat (2 ^ bit)
  have small : word.toNat % 2 ^ bit < 2 ^ bit := Nat.mod_lt _ (Nat.two_pow_pos _)
  have pred : (word - BitVec.ofNat width 1).toNat =
      2 ^ bit * (word.toNat / 2 ^ bit) + (word.toNat % 2 ^ bit - 1) := by
    have range := word.isLt
    have wrap : 2 ^ width - 1 + word.toNat = word.toNat - 1 + 2 ^ width := by omega
    rw [BitVec.toNat_sub, unit, wrap, Nat.add_mod_right, Nat.mod_eq_of_lt (by omega)]
    omega
  rw [BitVec.getLsbD, pred, Nat.testBit_two_pow_mul_add _ (by omega), if_neg (by omega),
    BitVec.getLsbD, ← value, Nat.testBit_two_pow_mul_add _ small, if_neg (by omega), value]

/-- Filling below the second one brings the lowest one back. -/
theorem getLsbD_fill_clear {bit : Nat} (one : word.getLsbD bit = true) :
    (fill (clear word)).getLsbD bit = true := by
  have inside : bit < width := BitVec.lt_of_getLsbD one
  rw [fill, BitVec.getLsbD_or, Bool.or_eq_true]
  cases kept : (clear word).getLsbD bit with
  | true => exact .inl rfl
  | false =>
    right
    have dropped : (word - BitVec.ofNat width 1).getLsbD bit = false := by
      rwa [clear, BitVec.getLsbD_and, one, Bool.true_and] at kept
    have lowest : ∀ place < bit, word.getLsbD place = false := by
      intro place below
      by_contra other
      rw [Bool.not_eq_false] at other
      rw [getLsbD_pred_high word inside below other, one] at dropped
      cases dropped
    apply getLsbD_pred_low _ inside
    intro place under
    rcases Nat.lt_or_eq_of_le under with below | rfl
    · rw [clear, BitVec.getLsbD_and, lowest place below, Bool.false_and]
    · exact kept

end LowestBit
