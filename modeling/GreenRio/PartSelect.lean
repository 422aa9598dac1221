import Mathlib.Data.ZMod.Defs

set_option autoImplicit false

namespace PartSelect

variable {n w : Nat}

/-- The vector with the part from bit `low` on replaced; what reaches beyond it is dropped. -/
def put (vector : BitVec n) (low : Nat) (part : BitVec w) : BitVec n :=
  (vector &&& ~~~((BitVec.allOnes w).setWidth n <<< low)) ||| (part.setWidth n <<< low)

theorem getLsbD_put (vector : BitVec n) (low : Nat) (part : BitVec w) (index : Nat) :
    (put vector low part).getLsbD index =
      if low ≤ index ∧ index < low + w ∧ index < n then part.getLsbD (index - low)
      else vector.getLsbD index := by
  by_cases inside : index < n
  · by_cases above : low ≤ index
    · by_cases below : index < low + w
      · have offset : index - low < w := by omega
        simp [put, inside, above, below, offset, Nat.not_lt.mpr above]
      · have offset : ¬index - low < w := by omega
        have outside : part.getLsbD (index - low) = false :=
          BitVec.getLsbD_of_ge part _ (by omega)
        simp [put, inside, above, below, offset, outside]
    · simp [put, inside, above, Nat.lt_of_not_le above]
  · have outside : vector.getLsbD index = false := BitVec.getLsbD_of_ge vector _ (by omega)
    simp [put, inside, outside]

/-- The part that was put is read back. -/
theorem extract_put (vector : BitVec n) (low : Nat) (part : BitVec w) (fits : low + w ≤ n) :
    (put vector low part).extractLsb' low w = part := by
  apply BitVec.eq_of_getLsbD_eq
  intro index bound
  rw [BitVec.getLsbD_extractLsb', getLsbD_put]
  simp only [bound, decide_true, Bool.true_and, Nat.add_sub_cancel_left]
  rw [if_pos (by omega)]

/-- Other parts keep what they held. -/
theorem extract_put_of_disjoint (vector : BitVec n) (low : Nat) (part : BitVec w) {start len : Nat}
    (apart : start + len ≤ low ∨ low + w ≤ start) :
    (put vector low part).extractLsb' start len = vector.extractLsb' start len := by
  apply BitVec.eq_of_getLsbD_eq
  intro index bound
  rw [BitVec.getLsbD_extractLsb', BitVec.getLsbD_extractLsb', getLsbD_put, if_neg (by omega)]

end PartSelect
