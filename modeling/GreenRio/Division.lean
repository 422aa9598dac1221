import GreenRio.Instruction

set_option autoImplicit false

namespace GreenRio.Division

variable {w : Nat}

/-- `DIV` and `DIVU` at a register width: division by zero gives all ones, and the one quotient
that does not fit, the signed minimum by minus one, wraps around to the dividend. -/
def quotient (isUnsigned : Bool) (x y : BitVec w) : BitVec w :=
  if y = 0 then BitVec.allOnes w
  else if isUnsigned then BitVec.ofNat w (x.toNat / y.toNat)
  else BitVec.ofInt w (x.toInt.tdiv y.toInt)

/-- `REM` and `REMU`: the remainder has the sign of the dividend, which it is when the divisor is
zero. -/
def remainder (isUnsigned : Bool) (x y : BitVec w) : BitVec w :=
  if y = 0 then x
  else if isUnsigned then BitVec.ofNat w (x.toNat % y.toNat)
  else BitVec.ofInt w (x.toInt.tmod y.toInt)

def divide (wantsRem isUnsigned : Bool) (x y : BitVec w) : BitVec w :=
  if wantsRem then remainder isUnsigned x y else quotient isUnsigned x y

/-- The value of the eight division instructions by `{word, rem, unsigned}`; the word forms divide
the lower halves and extend the sign of what they get. -/
def prescribed (op : BitVec 3) (operand1 operand2 : Word) : Word :=
  if op.getLsbD 2 then
    (divide (op.getLsbD 1) (op.getLsbD 0) (operand1.setWidth 32)
      (operand2.setWidth 32)).signExtend 64
  else divide (op.getLsbD 1) (op.getLsbD 0) operand1 operand2

/-- The sign and the magnitude of an operand, as an operation reads it. -/
def negative (isUnsigned : Bool) (x : BitVec w) : Bool := !isUnsigned && x.msb

def magnitude (isUnsigned : Bool) (x : BitVec w) : Nat :=
  if isUnsigned then x.toNat else x.toInt.natAbs

theorem toInt_eq_magnitude (x : BitVec w) :
    x.toInt = if negative false x then -(magnitude false x : Int) else magnitude false x := by
  simp only [negative, magnitude, Bool.not_false, Bool.true_and, Bool.false_eq_true, ↓reduceIte]
  have sign := BitVec.toInt_eq_msb_cond x
  have inside := x.isLt
  cases top : x.msb with
  | false =>
    rw [top] at sign
    simp only [Bool.false_eq_true, ↓reduceIte] at sign ⊢
    omega
  | true =>
    rw [top] at sign
    simp only [↓reduceIte] at sign ⊢
    omega

/-- Taking an operand's sign away leaves its magnitude. -/
theorem unsigned_toNat (isUnsigned : Bool) (x : BitVec w) :
    (if negative isUnsigned x then -x else x).toNat = magnitude isUnsigned x := by
  have inside := x.isLt
  have value := BitVec.toInt_eq_msb_cond x
  cases isUnsigned with
  | true => simp [negative, magnitude]
  | false =>
    cases top : x.msb with
    | false =>
      rw [top] at value
      simp [negative, magnitude, top, value]
    | true =>
      have half := BitVec.msb_eq_true_iff_two_mul_ge.mp top
      rw [top] at value
      simp only [negative, magnitude, top, value, BitVec.toNat_neg, Bool.not_false, Bool.true_and,
        Bool.false_eq_true, ↓reduceIte]
      rw [Nat.mod_eq_of_lt (by omega)]
      omega

theorem magnitude_lt (isUnsigned : Bool) (x : BitVec w) : magnitude isUnsigned x < 2 ^ w := by
  have sign := BitVec.toInt_eq_toNat_cond x
  have inside := x.isLt
  unfold magnitude
  split
  · exact inside
  · split at sign <;> omega

theorem magnitude_eq_zero (isUnsigned : Bool) (x : BitVec w) :
    magnitude isUnsigned x = 0 ↔ x = 0 := by
  cases isUnsigned with
  | true =>
    simp only [magnitude, ↓reduceIte]
    exact ⟨fun zero => BitVec.eq_of_toNat_eq (by simpa using zero), fun same => by simp [same]⟩
  | false =>
    simp only [magnitude, Bool.false_eq_true, ↓reduceIte, Int.natAbs_eq_zero]
    exact ⟨fun zero => BitVec.eq_of_toInt_eq (by simpa using zero), fun same => by simp [same]⟩

theorem tdiv_signs (x y : Nat) (left right : Bool) :
    (if left then -(x : Int) else x).tdiv (if right then -(y : Int) else y) =
      if left ^^ right then -((x / y : Nat) : Int) else (x / y : Nat) := by
  cases left <;> cases right <;>
    simp [Int.neg_tdiv, Int.tdiv_neg]

theorem tmod_signs (x y : Nat) (left right : Bool) :
    (if left then -(x : Int) else x).tmod (if right then -(y : Int) else y) =
      if left then -((x % y : Nat) : Int) else (x % y : Nat) := by
  cases left <;> cases right <;>
    simp [Int.neg_tmod, Int.tmod_neg, Int.tmod_eq_emod_of_nonneg]

/-- The quotient of the magnitudes, with the sign that the operands ask for. -/
theorem quotient_eq (isUnsigned : Bool) (x y : BitVec w) :
    quotient isUnsigned x y =
      let count := if magnitude isUnsigned y = 0 then 2 ^ w - 1
        else magnitude isUnsigned x / magnitude isUnsigned y
      if (negative isUnsigned x ^^ negative isUnsigned y) && magnitude isUnsigned y != 0
        then -BitVec.ofNat w count else BitVec.ofNat w count := by
  rw [quotient]
  by_cases zero : y = 0
  · simp only [zero, (magnitude_eq_zero isUnsigned (0 : BitVec w)).mpr rfl, ↓reduceIte,
      bne_self_eq_false, Bool.and_false, Bool.false_eq_true]
    apply BitVec.eq_of_toNat_eq
    rw [BitVec.toNat_allOnes, BitVec.toNat_ofNat, Nat.mod_eq_of_lt]
    have := Nat.two_pow_pos w
    omega
  · have nonzero := mt (magnitude_eq_zero isUnsigned y).mp zero
    simp only [if_neg zero, if_neg nonzero, bne_iff_ne.mpr nonzero, Bool.and_true]
    cases isUnsigned with
    | true => simp [negative, magnitude]
    | false =>
      rw [if_neg (by simp), toInt_eq_magnitude x, toInt_eq_magnitude y, tdiv_signs]
      split
      · rw [BitVec.ofInt_neg, BitVec.ofInt_natCast]
      · rw [BitVec.ofInt_natCast]

/-- The remainder of the magnitudes, with the sign of the dividend. -/
theorem remainder_eq (isUnsigned : Bool) (x y : BitVec w) :
    remainder isUnsigned x y =
      let count := magnitude isUnsigned x % magnitude isUnsigned y
      if negative isUnsigned x then -BitVec.ofNat w count else BitVec.ofNat w count := by
  have signed : BitVec.ofInt w (x.toInt.tmod y.toInt) =
      if negative false x then -BitVec.ofNat w (magnitude false x % magnitude false y)
        else BitVec.ofNat w (magnitude false x % magnitude false y) := by
    rw [toInt_eq_magnitude x, toInt_eq_magnitude y, tmod_signs]
    split
    · rw [BitVec.ofInt_neg, BitVec.ofInt_natCast]
    · rw [BitVec.ofInt_natCast]
  rw [remainder]
  by_cases zero : y = 0
  · subst zero
    rw [if_pos rfl]
    cases isUnsigned with
    | true => simp [negative, magnitude]
    | false =>
      rw [← signed]
      simp
  · rw [if_neg zero]
    cases isUnsigned with
    | true => simp [negative, magnitude]
    | false => exact signed

end GreenRio.Division
