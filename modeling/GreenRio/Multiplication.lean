import GreenRio.ColumnProduct
import GreenRio.Multiplier

set_option autoImplicit false

namespace GreenRio.Multiplication

/-- The value of the multiplications: half of the exact 128-bit product, or the product of the
lower halves with its sign. -/
def prescribed (word : Bool) (op : BitVec 2) (x y : Word) : Word :=
  if word then (x.setWidth 32 * y.setWidth 32).signExtend 64
  else
    match op with
    | 0 => (BitVec.ofInt 128 (x.toInt * y.toInt)).extractLsb' 0 64
    | 1 => (BitVec.ofInt 128 (x.toInt * y.toInt)).extractLsb' 64 64
    | 2 => (BitVec.ofInt 128 (x.toInt * y.toNat)).extractLsb' 64 64
    | 3 => (BitVec.ofInt 128 (x.toNat * y.toNat : Nat)).extractLsb' 64 64

end GreenRio.Multiplication

namespace GreenRio.Multiplier

open ColumnProduct PartSelect

section Operands

theorem lowDigit_toInt (operand : BitVec 65) (low : Nat) :
    ((operand.extractLsb' low 16).setWidth 17).toInt =
      (operand.toNat / 2 ^ low % 2 ^ 16 : Nat) := by
  have bound : operand.toNat / 2 ^ low % 2 ^ 16 < 2 ^ 16 := Nat.mod_lt _ (by decide)
  have count : ((operand.extractLsb' low 16).setWidth 17).toNat =
      operand.toNat / 2 ^ low % 2 ^ 16 := by
    rw [BitVec.toNat_setWidth, BitVec.extractLsb'_toNat, Nat.shiftRight_eq_div_pow,
      Nat.mod_eq_of_lt (by omega)]
  rw [BitVec.toInt_eq_toNat_cond, count, if_pos (by omega)]

theorem topDigit_toInt (operand : BitVec 65) :
    (operand.extractLsb' 48 17).toInt = operand.toInt / 2 ^ 48 := by
  have inside := operand.isLt
  have count : (operand.extractLsb' 48 17).toNat = operand.toNat / 2 ^ 48 := by
    rw [BitVec.extractLsb'_toNat, Nat.shiftRight_eq_div_pow, Nat.mod_eq_of_lt (by omega)]
  rw [BitVec.toInt_eq_toNat_cond, BitVec.toInt_eq_toNat_cond, count]
  split <;> split <;> omega

/-- The digits of an operand that is no smaller than a signed word. -/
def digits (operand : BitVec 65) (latched : -2 ^ 63 ≤ operand.toInt) : Digits where
  d0 := (macOp 0 operand).toInt
  d1 := (macOp 1 operand).toInt
  d2 := (macOp 2 operand).toInt
  d3 := (macOp 3 operand).toInt
  range0 := by
    have digit : (macOp 0 operand).toInt = _ := lowDigit_toInt operand 0
    omega
  range1 := by
    have digit : (macOp 1 operand).toInt = _ := lowDigit_toInt operand 16
    omega
  range2 := by
    have digit : (macOp 2 operand).toInt = _ := lowDigit_toInt operand 32
    omega
  range3 := by
    have below := BitVec.two_mul_toInt_lt (x := operand)
    have digit : (macOp 3 operand).toInt = _ := topDigit_toInt operand
    omega

theorem digits_value (operand : BitVec 65) (latched : -2 ^ 63 ≤ operand.toInt) :
    (digits operand latched).value = operand.toInt := by
  have sign := BitVec.toInt_eq_toNat_cond operand
  change ((operand.extractLsb' 0 16).setWidth 17).toInt +
    2 ^ 16 * ((operand.extractLsb' 16 16).setWidth 17).toInt +
    2 ^ 32 * ((operand.extractLsb' 32 16).setWidth 17).toInt +
    2 ^ 48 * (operand.extractLsb' 48 17).toInt = _
  rw [lowDigit_toInt, lowDigit_toInt, lowDigit_toInt, topDigit_toInt]
  split at sign <;> omega

/-- A word with a sign bit in front keeps its value. -/
theorem cons_msb_toInt (x : Word) : (x.cons x.msb).toInt = x.toInt := by
  have inside := x.isLt
  have top := BitVec.msb_eq_decide x
  rw [BitVec.toInt_eq_toNat_cond, BitVec.toInt_eq_toNat_cond, BitVec.toNat_cons', top,
    Nat.shiftLeft_eq]
  by_cases negative : 2 ^ 63 ≤ x.toNat <;> simp only [negative, decide_true, decide_false,
    Bool.toNat_true, Bool.toNat_false] <;> split <;> split <;> omega

theorem cons_false_toInt (x : Word) : (x.cons false).toInt = x.toNat := by
  have inside := x.isLt
  rw [BitVec.toInt_eq_toNat_cond, BitVec.toNat_cons', Nat.shiftLeft_eq, Bool.toNat_false,
    if_pos (by omega)]
  omega

end Operands

section Sums

/-- While a sum fits the accumulator, adding a product is exact. -/
theorem mac_toInt (a b : BitVec 65) (i j : BitVec 2) {accum : BitVec 35} {sum : Int}
    (holds : accum.toInt = sum) (low : -2 ^ 34 ≤ sum + (macOp i a).toInt * (macOp j b).toInt)
    (high : sum + (macOp i a).toInt * (macOp j b).toInt < 2 ^ 34) :
    (mac a b i j accum).toInt = sum + (macOp i a).toInt * (macOp j b).toInt := by
  rw [mac, BitVec.toInt_add, BitVec.toInt_mul, BitVec.toInt_signExtend_of_le (by omega),
    BitVec.toInt_signExtend_of_le (by omega), holds, Int.add_bmod_bmod]
  exact Int.bmod_eq_of_le (by omega) (by omega)

/-- The sum that moves down to the next column. -/
theorem carry_toInt (macProd : BitVec 35) : (carry macProd).toInt = macProd.toInt / 2 ^ 16 := by
  have inside := macProd.isLt
  have count : (macProd.extractLsb' 16 19).toNat = macProd.toNat / 2 ^ 16 := by
    rw [BitVec.extractLsb'_toNat, Nat.shiftRight_eq_div_pow, Nat.mod_eq_of_lt (by omega)]
  rw [carry, BitVec.toInt_signExtend_of_le (by omega), BitVec.toInt_eq_toNat_cond,
    BitVec.toInt_eq_toNat_cond, count]
  split <;> split <;> omega

theorem digit_eq (macProd : BitVec 35) {width : Nat} (narrow : width ≤ 35) :
    macProd.extractLsb' 0 width = BitVec.ofInt width macProd.toInt := by
  change _ = macProd.signExtend width
  ext place inside
  simp [BitVec.getElem_signExtend, show place < 35 by omega]

theorem macOp_range {operand : BitVec 65} (latched : -2 ^ 63 ≤ operand.toInt) (index : BitVec 2) :
    -2 ^ 15 ≤ (macOp index operand).toInt ∧ (macOp index operand).toInt < 2 ^ 16 := by
  have codes : ∀ code : BitVec 2, code = 0 ∨ code = 1 ∨ code = 2 ∨ code = 3 := by decide
  rcases codes index with rfl | rfl | rfl | rfl
  · have range := (digits operand latched).range0
    change 0 ≤ (macOp 0 operand).toInt ∧ (macOp 0 operand).toInt < _ at range
    omega
  · have range := (digits operand latched).range1
    change 0 ≤ (macOp 1 operand).toInt ∧ (macOp 1 operand).toInt < _ at range
    omega
  · have range := (digits operand latched).range2
    change 0 ≤ (macOp 2 operand).toInt ∧ (macOp 2 operand).toInt < _ at range
    omega
  · exact (digits operand latched).range3

/-- The registers of a running multiplication. -/
def summing (a b : BitVec 65) (low word : Bool) (i j : BitVec 2) (accum : BitVec 35)
    (value : Word) : Multiplier :=
  ⟨true, i, j, a, b, low, word, accum, false, value⟩

/-- The multiplication is about to add the product of two digits to a sum, which has so far got a
carry and some products of its column. -/
structure Sums (a b : BitVec 65) (low word : Bool) (i j : BitVec 2) (terms : Nat) (sum : Int)
    (value : Word) (unit : Multiplier) : Prop where
  registers : unit = summing a b low word i j unit.accum value
  accum : unit.accum.toInt = sum
  range : -2 ^ 18 - 2 ^ 31 * terms ≤ sum ∧ sum ≤ 2 ^ 18 + (2 ^ 16 - 1) * (2 ^ 16 - 1) * terms

variable {a b : BitVec 65} {low word : Bool} {i j i' j' : BitVec 2} {terms : Nat} {sum : Int}
  {value : Word} {unit : Multiplier}

theorem Sums.mac_eq (sums : Sums a b low word i j terms sum value unit)
    (latchedA : -2 ^ 63 ≤ a.toInt) (latchedB : -2 ^ 63 ≤ b.toInt) (few : terms < 4) :
    (mac a b i j unit.accum).toInt = sum + (macOp i a).toInt * (macOp j b).toInt ∧
      -2 ^ 18 - 2 ^ 31 * ((terms + 1 : Nat) : Int) ≤
        sum + (macOp i a).toInt * (macOp j b).toInt ∧
      sum + (macOp i a).toInt * (macOp j b).toInt ≤
        2 ^ 18 + (2 ^ 16 - 1) * (2 ^ 16 - 1) * ((terms + 1 : Nat) : Int) := by
  obtain ⟨least, most⟩ := small_mul (macOp_range latchedA i) (macOp_range latchedB j)
  obtain ⟨lowest, highest⟩ := sums.range
  refine ⟨mac_toInt a b i j sums.accum ?_ ?_, ?_, ?_⟩ <;> omega

variable {cycles : Nat}

/-- A cycle inside a column. -/
theorem Sums.add (sums : Sums a b low word i j terms sum value (progress^[cycles] unit))
    (latchedA : -2 ^ 63 ≤ a.toInt) (latchedB : -2 ^ 63 ≤ b.toInt) (few : terms < 4)
    (moves : ∀ accum, (summing a b low word i j accum value).progress =
      summing a b low word i' j' (mac a b i j accum) value) :
    Sums a b low word i' j' (terms + 1) (sum + (macOp i a).toInt * (macOp j b).toInt) value
      (progress^[cycles + 1] unit) := by
  obtain ⟨exact', range⟩ := sums.mac_eq latchedA latchedB few
  rw [Function.iterate_succ_apply', sums.registers, moves]
  exact ⟨rfl, exact', range⟩

/-- The last cycle of a column: its digit goes out, and the rest of the sum into the next one. -/
theorem Sums.emit (total : Int) (result : Word)
    (sums : Sums a b low word i j terms sum value (progress^[cycles] unit))
    (latchedA : -2 ^ 63 ≤ a.toInt) (latchedB : -2 ^ 63 ≤ b.toInt) (few : terms < 4)
    (column : sum + (macOp i a).toInt * (macOp j b).toInt = total)
    (moves : ∀ accum, (mac a b i j accum).toInt = total →
      (summing a b low word i j accum value).progress =
        summing a b low word i' j' (carry (mac a b i j accum)) result) :
    Sums a b low word i' j' 0 (total / 2 ^ 16) result (progress^[cycles + 1] unit) := by
  obtain ⟨exact', lowest, highest⟩ := sums.mac_eq latchedA latchedB few
  rw [column] at exact' lowest highest
  rw [Function.iterate_succ_apply', sums.registers, moves _ exact']
  refine ⟨rfl, ?_, by omega, by omega⟩
  change (carry (mac a b i j (progress^[cycles] unit).accum)).toInt = _
  rw [carry_toInt, exact']

/-- A multiplication that has just put its result out. -/
def done (a b : BitVec 65) (low word : Bool) (value : Word) : Multiplier :=
  ⟨false, 0, 0, a, b, low, word, 0, true, value⟩

/-- The last cycle of all. -/
theorem Sums.finish (total : Int) (result : Word)
    (sums : Sums a b low word i j terms sum value (progress^[cycles] unit))
    (latchedA : -2 ^ 63 ≤ a.toInt) (latchedB : -2 ^ 63 ≤ b.toInt) (few : terms < 4)
    (column : sum + (macOp i a).toInt * (macOp j b).toInt = total)
    (moves : ∀ accum, (mac a b i j accum).toInt = total →
      (summing a b low word i j accum value).progress = done a b low word result) :
    progress^[cycles + 1] unit = done a b low word result := by
  have exact' := (sums.mac_eq latchedA latchedB few).1
  rw [column] at exact'
  rw [Function.iterate_succ_apply', sums.registers]
  exact moves _ exact'

end Sums

section Run

variable {a b : BitVec 65} {low word : Bool} {unit : Multiplier}
  (latchedA : -2 ^ 63 ≤ a.toInt) (latchedB : -2 ^ 63 ≤ b.toInt)

/-- The result register after each of the columns. -/
def value0 : Word := put 0 0 (BitVec.ofInt 16 (sum0 (digits a latchedA) (digits b latchedB)))

def value1 : Word :=
  put (value0 latchedA latchedB) 16
    ((BitVec.ofInt 16 (sum1 (digits a latchedA) (digits b latchedB))).signExtend 48)

def value2 : Word :=
  put (value1 latchedA latchedB) 32
    (BitVec.ofInt 16 (sum2 (digits a latchedA) (digits b latchedB)))

def value3 : Word :=
  put (value2 latchedA latchedB) 48
    (BitVec.ofInt 16 (sum3 (digits a latchedA) (digits b latchedB)))

def value4 : Word :=
  put (value3 latchedA latchedB) 0
    (BitVec.ofInt 16 (sum4 (digits a latchedA) (digits b latchedB)))

def value5 : Word :=
  put (value4 latchedA latchedB) 16
    (BitVec.ofInt 16 (sum5 (digits a latchedA) (digits b latchedB)))

def value6 : Word :=
  put (value5 latchedA latchedB) 32
    (BitVec.ofInt 32 (sum6 (digits a latchedA) (digits b latchedB)))

/-- The first column has one product. -/
theorem column0 (start : Sums a b low word 0 0 0 0 0 unit) :
    Sums a b low word 1 0 0 (sum0 (digits a latchedA) (digits b latchedB) / 2 ^ 16)
      (value0 latchedA latchedB) (progress^[1] unit) := by
  have before : Sums a b low word 0 0 0 0 0 (progress^[0] unit) := start
  refine before.emit (sum0 (digits a latchedA) (digits b latchedB)) _ latchedA latchedB
    (by omega) (Int.zero_add _) ?_
  intro accum holds
  change summing a b low word 1 0 (carry (mac a b 0 0 accum))
    (put 0 0 ((mac a b 0 0 accum).extractLsb' 0 16)) = _
  rw [digit_eq _ (by omega), holds]
  rfl

/-- The second column, but for its last product. -/
theorem column1 (start : Sums a b low word 0 0 0 0 0 unit) :
    Sums a b low word 0 1 1 (sum0 (digits a latchedA) (digits b latchedB) / 2 ^ 16 +
        (macOp 1 a).toInt * (macOp 0 b).toInt)
      (value0 latchedA latchedB) (progress^[2] unit) :=
  (column0 latchedA latchedB start).add latchedA latchedB (by omega) fun accum => rfl

/-- A word multiplication ends with the second column. -/
theorem finish_word (start : Sums a b low true 0 0 0 0 0 unit) :
    progress^[3] unit = done a b low true (value1 latchedA latchedB) := by
  refine (column1 latchedA latchedB start).finish
    (sum1 (digits a latchedA) (digits b latchedB)) _ latchedA latchedB (by omega) rfl ?_
  intro accum holds
  change done a b low true
    (put (value0 latchedA latchedB) 16 (((mac a b 0 1 accum).extractLsb' 0 16).signExtend 48)) = _
  rw [digit_eq _ (by omega), holds]
  rfl

/-- The third column, but for its last product. -/
theorem column2 (start : Sums a b low false 0 0 0 0 0 unit) :
    Sums a b low false 2 0 2 (sum1 (digits a latchedA) (digits b latchedB) / 2 ^ 16 +
        (macOp 0 a).toInt * (macOp 2 b).toInt + (macOp 1 a).toInt * (macOp 1 b).toInt)
      (value1 latchedA latchedB) (progress^[5] unit) := by
  have first : Sums a b low false 0 2 0 (sum1 (digits a latchedA) (digits b latchedB) / 2 ^ 16)
      (value1 latchedA latchedB) (progress^[3] unit) := by
    refine (column1 latchedA latchedB start).emit
      (sum1 (digits a latchedA) (digits b latchedB)) _ latchedA latchedB (by omega) rfl ?_
    intro accum holds
    change summing a b low false 0 2 (carry (mac a b 0 1 accum))
      (put (value0 latchedA latchedB) 16
        (((mac a b 0 1 accum).extractLsb' 0 16).signExtend 48)) = _
    rw [digit_eq _ (by omega), holds]
    rfl
  have second := first.add latchedA latchedB (by omega) fun accum => rfl
  exact second.add latchedA latchedB (by omega) fun accum => rfl

/-- The fourth column, but for its last product. -/
theorem column3 (start : Sums a b low false 0 0 0 0 0 unit) :
    Sums a b low false 0 3 3 (sum2 (digits a latchedA) (digits b latchedB) / 2 ^ 16 +
        (macOp 3 a).toInt * (macOp 0 b).toInt + (macOp 2 a).toInt * (macOp 1 b).toInt +
        (macOp 1 a).toInt * (macOp 2 b).toInt)
      (value2 latchedA latchedB) (progress^[9] unit) := by
  have first : Sums a b low false 3 0 0 (sum2 (digits a latchedA) (digits b latchedB) / 2 ^ 16)
      (value2 latchedA latchedB) (progress^[6] unit) := by
    refine (column2 latchedA latchedB start).emit
      (sum2 (digits a latchedA) (digits b latchedB)) _ latchedA latchedB (by omega) rfl ?_
    intro accum holds
    change summing a b low false 3 0 (carry (mac a b 2 0 accum))
      (put (value1 latchedA latchedB) 32 ((mac a b 2 0 accum).extractLsb' 0 16)) = _
    rw [digit_eq _ (by omega), holds]
    rfl
  have second := first.add latchedA latchedB (by omega) fun accum => rfl
  have third := second.add latchedA latchedB (by omega) fun accum => rfl
  exact third.add latchedA latchedB (by omega) fun accum => rfl

/-- The low half ends with the fourth column. -/
theorem finish_low (start : Sums a b true false 0 0 0 0 0 unit) :
    progress^[10] unit = done a b true false (value3 latchedA latchedB) := by
  refine (column3 latchedA latchedB start).finish
    (sum3 (digits a latchedA) (digits b latchedB)) _ latchedA latchedB (by omega) rfl ?_
  intro accum holds
  change done a b true false
    (put (value2 latchedA latchedB) 48 ((mac a b 0 3 accum).extractLsb' 0 16)) = _
  rw [digit_eq _ (by omega), holds]
  rfl

/-- The fifth column, but for its last product. -/
theorem column4 (start : Sums a b false false 0 0 0 0 0 unit) :
    Sums a b false false 3 1 2 (sum3 (digits a latchedA) (digits b latchedB) / 2 ^ 16 +
        (macOp 1 a).toInt * (macOp 3 b).toInt + (macOp 2 a).toInt * (macOp 2 b).toInt)
      (value3 latchedA latchedB) (progress^[12] unit) := by
  have first : Sums a b false false 1 3 0
      (sum3 (digits a latchedA) (digits b latchedB) / 2 ^ 16)
      (value3 latchedA latchedB) (progress^[10] unit) := by
    refine (column3 latchedA latchedB start).emit
      (sum3 (digits a latchedA) (digits b latchedB)) _ latchedA latchedB (by omega) rfl ?_
    intro accum holds
    change summing a b false false 1 3 (carry (mac a b 0 3 accum))
      (put (value2 latchedA latchedB) 48 ((mac a b 0 3 accum).extractLsb' 0 16)) = _
    rw [digit_eq _ (by omega), holds]
    rfl
  have second := first.add latchedA latchedB (by omega) fun accum => rfl
  exact second.add latchedA latchedB (by omega) fun accum => rfl

/-- The sixth column, but for its last product. -/
theorem column5 (start : Sums a b false false 0 0 0 0 0 unit) :
    Sums a b false false 2 3 1 (sum4 (digits a latchedA) (digits b latchedB) / 2 ^ 16 +
        (macOp 3 a).toInt * (macOp 2 b).toInt)
      (value4 latchedA latchedB) (progress^[14] unit) := by
  have first : Sums a b false false 3 2 0
      (sum4 (digits a latchedA) (digits b latchedB) / 2 ^ 16)
      (value4 latchedA latchedB) (progress^[13] unit) := by
    refine (column4 latchedA latchedB start).emit
      (sum4 (digits a latchedA) (digits b latchedB)) _ latchedA latchedB (by omega) rfl ?_
    intro accum holds
    change summing a b false false 3 2 (carry (mac a b 3 1 accum))
      (put (value3 latchedA latchedB) 0 ((mac a b 3 1 accum).extractLsb' 0 16)) = _
    rw [digit_eq _ (by omega), holds]
    rfl
  exact first.add latchedA latchedB (by omega) fun accum => rfl

/-- The high half ends with the last column. -/
theorem finish_high (start : Sums a b false false 0 0 0 0 0 unit) :
    progress^[16] unit = done a b false false (value6 latchedA latchedB) := by
  have last : Sums a b false false 3 3 0
      (sum5 (digits a latchedA) (digits b latchedB) / 2 ^ 16)
      (value5 latchedA latchedB) (progress^[15] unit) := by
    refine (column5 latchedA latchedB start).emit
      (sum5 (digits a latchedA) (digits b latchedB)) _ latchedA latchedB (by omega) rfl ?_
    intro accum holds
    change summing a b false false 3 3 (carry (mac a b 2 3 accum))
      (put (value4 latchedA latchedB) 16 ((mac a b 2 3 accum).extractLsb' 0 16)) = _
    rw [digit_eq _ (by omega), holds]
    rfl
  refine last.finish (sum6 (digits a latchedA) (digits b latchedB)) _ latchedA latchedB
    (by omega) rfl ?_
  intro accum holds
  change done a b false false
    (put (value5 latchedA latchedB) 32 ((mac a b 3 3 accum).extractLsb' 0 32)) = _
  rw [digit_eq _ (by omega), holds]
  rfl

end Run

section Values

theorem ofInt_append (w v : Nat) (high low : Int) :
    BitVec.ofInt w high ++ BitVec.ofInt v low =
      BitVec.ofInt (w + v) (low % 2 ^ v + 2 ^ v * high) := by
  have positiveV : (0 : Int) < 2 ^ v := Int.pow_pos (by decide)
  have positiveW : (0 : Int) < 2 ^ w := Int.pow_pos (by decide)
  have lowRange := Int.emod_lt_of_pos low positiveV
  have lowSign := Int.emod_nonneg low (Int.ne_of_gt positiveV)
  have highRange := Int.emod_lt_of_pos high positiveW
  have highSign := Int.emod_nonneg high (Int.ne_of_gt positiveW)
  have parts : (low % 2 ^ v + 2 ^ v * high) % 2 ^ (w + v) =
      low % 2 ^ v + 2 ^ v * (high % 2 ^ w) := by
    have whole : low % 2 ^ v + 2 ^ v * high =
        low % 2 ^ v + 2 ^ v * (high % 2 ^ w) + 2 ^ (w + v) * (high / 2 ^ w) := by
      conv_lhs => rw [← Int.emod_add_mul_ediv high (2 ^ w)]
      rw [pow_add]
      ring
    rw [whole, Int.add_mul_emod_self_left]
    refine Int.emod_eq_of_lt (by positivity) ?_
    rw [pow_add]
    nlinarith
  apply BitVec.eq_of_toNat_eq
  rw [BitVec.toNat_append, ← Nat.shiftLeft_add_eq_or_of_lt (BitVec.isLt _), Nat.shiftLeft_eq,
    BitVec.toNat_ofInt, BitVec.toNat_ofInt, BitVec.toNat_ofInt]
  push_cast
  rw [parts]
  zify
  rw [Int.toNat_of_nonneg highSign, Int.toNat_of_nonneg lowSign,
    Int.toNat_of_nonneg (by positivity)]
  ring

variable {a b : BitVec 65} (latchedA : -2 ^ 63 ≤ a.toInt) (latchedB : -2 ^ 63 ≤ b.toInt)

theorem ofInt_congr {w : Nat} {x y : Int} (same : x % 2 ^ w = y % 2 ^ w) :
    BitVec.ofInt w x = BitVec.ofInt w y := by
  apply BitVec.eq_of_toNat_eq
  rw [BitVec.toNat_ofInt, BitVec.toNat_ofInt]
  push_cast
  rw [same]

/-- The result register of a word multiplication. -/
theorem put_word (high low : BitVec 16) :
    put (put (0 : Word) 0 low) 16 (high.signExtend 48) = (high ++ low).signExtend 64 := by
  apply BitVec.eq_of_getLsbD_eq
  intro index bound
  rw [getLsbD_put, getLsbD_put, BitVec.getLsbD_signExtend, BitVec.getLsbD_signExtend,
    BitVec.getLsbD_append, BitVec.msb_append]
  by_cases lower : index < 16
  · simp [lower, bound, show ¬16 ≤ index by omega, show index < 32 by omega]
  · by_cases upper : index < 32
    · simp [lower, upper, bound, show 16 ≤ index by omega, show index - 16 < 16 by omega,
        show index - 16 < 48 by omega]
    · simp [upper, bound, show 16 ≤ index by omega, show ¬index - 16 < 16 by omega,
        show index - 16 < 48 by omega]

/-- The result register of the low half. -/
theorem put_low (digit3 digit2 digit1 digit0 : BitVec 16) :
    put (put (put (put (0 : Word) 0 digit0) 16 (digit1.signExtend 48)) 32 digit2) 48 digit3 =
      digit3 ++ (digit2 ++ (digit1 ++ digit0)) := by
  rw [put_word]
  apply BitVec.eq_of_getLsbD_eq
  intro index bound
  simp only [getLsbD_put, BitVec.getLsbD_signExtend, BitVec.getLsbD_append]
  by_cases lower : index < 32
  · simp [lower, bound, show ¬32 ≤ index by omega, show ¬48 ≤ index by omega,
      show index < 48 by omega]
  · by_cases upper : index < 48
    · simp [upper, show 32 ≤ index by omega, show ¬48 ≤ index by omega, bound]
    · simp [upper, show 48 ≤ index by omega, bound]

/-- The result register of the high half, whatever it held. -/
theorem put_high (value : Word) (digit6 : BitVec 32) (digit5 digit4 : BitVec 16) :
    put (put (put value 0 digit4) 16 digit5) 32 digit6 = digit6 ++ (digit5 ++ digit4) := by
  apply BitVec.eq_of_getLsbD_eq
  intro index bound
  rw [getLsbD_put, getLsbD_put, getLsbD_put, BitVec.getLsbD_append, BitVec.getLsbD_append]
  by_cases lower : index < 16
  · simp [lower, bound, show ¬16 ≤ index by omega, show ¬32 ≤ index by omega,
      show index < 32 by omega]
  · by_cases upper : index < 32
    · simp [lower, upper, show 16 ≤ index by omega, show ¬32 ≤ index by omega, bound]
    · simp [upper, show 32 ≤ index by omega, bound]

theorem value1_eq : value1 latchedA latchedB =
    (BitVec.ofInt 32 (a.toInt * b.toInt)).signExtend 64 := by
  have product := product_mod (digits a latchedA) (digits b latchedB)
  rw [digits_value, digits_value] at product
  unfold lowHalf at product
  rw [value1, value0, put_word, ofInt_append]
  exact congrArg _ (ofInt_congr (by omega))

theorem value3_eq : value3 latchedA latchedB = BitVec.ofInt 64 (a.toInt * b.toInt) := by
  have product := product_mod (digits a latchedA) (digits b latchedB)
  rw [digits_value, digits_value] at product
  unfold lowHalf at product
  rw [value3, value2, value1, value0, put_low, ofInt_append, ofInt_append, ofInt_append]
  exact ofInt_congr (by omega)

theorem value6_eq : value6 latchedA latchedB =
    BitVec.ofInt 64 (a.toInt * b.toInt / 2 ^ 64) := by
  have product := product_div (digits a latchedA) (digits b latchedB)
  rw [digits_value, digits_value] at product
  unfold highHalf at product
  rw [value6, value5, value4, put_high, ofInt_append, ofInt_append]
  exact ofInt_congr (by omega)

end Values

section Request

/-- The number of products that are added for an operation. -/
def products (word low : Bool) : Nat := if word then 3 else if low then 10 else 16

/-- The products that come before that of two digits. -/
def place (i j : BitVec 2) : Nat :=
  match i, j with
  | 0, 0 => 0
  | 1, 0 => 1
  | 0, 1 => 2
  | 0, 2 => 3
  | 1, 1 => 4
  | 2, 0 => 5
  | 3, 0 => 6
  | 2, 1 => 7
  | 1, 2 => 8
  | 0, 3 => 9
  | 1, 3 => 10
  | 2, 2 => 11
  | 3, 1 => 12
  | 3, 2 => 13
  | 2, 3 => 14
  | 3, 3 => 15

/-- Before the last product a multiplication stays busy and silent. -/
theorem progress_place (unit : Multiplier) (busy : unit.state = true)
    (more : place unit.aIdx unit.bIdx + 1 < products unit.opWord unit.opLow) :
    unit.progress.state = true ∧ unit.progress.respValid = false ∧
      place unit.progress.aIdx unit.progress.bIdx = place unit.aIdx unit.bIdx + 1 ∧
      unit.progress.opWord = unit.opWord ∧ unit.progress.opLow = unit.opLow := by
  have codes : ∀ code : BitVec 2, code = 0 ∨ code = 1 ∨ code = 2 ∨ code = 3 := by decide
  obtain ⟨state, i, j, a, b, low, word, accum, valid, value⟩ := unit
  cases busy
  change place i j + 1 < products word low at more
  rcases codes i with rfl | rfl | rfl | rfl <;> rcases codes j with rfl | rfl | rfl | rfl <;>
    cases low <;> cases word <;>
    first
    | exact absurd more (by decide)
    | exact ⟨rfl, rfl, rfl, rfl, rfl⟩

theorem progress_before (unit : Multiplier) (busy : unit.state = true)
    (silent : unit.respValid = false) (first : place unit.aIdx unit.bIdx = 0) (cycles : Nat)
    (more : cycles < products unit.opWord unit.opLow) :
    (progress^[cycles] unit).state = true ∧ (progress^[cycles] unit).respValid = false ∧
      place (progress^[cycles] unit).aIdx (progress^[cycles] unit).bIdx = cycles ∧
      (progress^[cycles] unit).opWord = unit.opWord ∧
      (progress^[cycles] unit).opLow = unit.opLow := by
  induction cycles with
  | zero => exact ⟨busy, silent, first, rfl, rfl⟩
  | succ cycles before =>
    obtain ⟨running, -, position, word, low⟩ := before (by omega)
    rw [Function.iterate_succ_apply']
    obtain ⟨running', silent', position', word', low'⟩ :=
      progress_place _ running (by rw [position, word, low]; exact more)
    exact ⟨running', silent', by rw [position', position], word'.trans word, low'.trans low⟩

theorem latchA_toInt (wires : MulWires) : (latchA wires).toInt =
    if wires.reqOp = opMulhu then (wires.operandA.toNat : Int) else wires.operandA.toInt := by
  unfold latchA
  by_cases unsigned : wires.reqOp = opMulhu
  · simp [unsigned, cons_false_toInt]
  · simp [unsigned, cons_msb_toInt]

theorem latchB_toInt (wires : MulWires) : (latchB wires).toInt =
    if wires.reqOp.getLsbD 1 = true then (wires.operandB.toNat : Int)
    else wires.operandB.toInt := by
  unfold latchB
  cases wires.reqOp.getLsbD 1 with
  | false => exact cons_msb_toInt _
  | true => exact cons_false_toInt _

theorem latchA_range (wires : MulWires) : -2 ^ 63 ≤ (latchA wires).toInt := by
  have signed := BitVec.le_two_mul_toInt (x := wires.operandA)
  rw [latchA_toInt]
  split <;> omega

theorem latchB_range (wires : MulWires) : -2 ^ 63 ≤ (latchB wires).toInt := by
  have signed := BitVec.le_two_mul_toInt (x := wires.operandB)
  rw [latchB_toInt]
  split <;> omega

theorem accept_eq (unit : Multiplier) (wires : MulWires) (request : wires.reqValid = true) :
    unit.accept wires =
      summing (latchA wires) (latchB wires) (wires.reqOp == opMul) wires.reqWord 0 0 0 0 := by
  unfold accept
  rw [if_pos request]
  rfl

theorem accept_sums (unit : Multiplier) (wires : MulWires) (request : wires.reqValid = true) :
    Sums (latchA wires) (latchB wires) (wires.reqOp == opMul) wires.reqWord 0 0 0 0 0
      (unit.accept wires) := by
  rw [accept_eq unit wires request]
  exact ⟨rfl, rfl, by decide⟩

theorem accept_busy (unit : Multiplier) (wires : MulWires) (request : wires.reqValid = true)
    (cycles : Nat) (more : cycles < products wires.reqWord (wires.reqOp == opMul)) :
    (progress^[cycles] (unit.accept wires)).state = true ∧
      (progress^[cycles] (unit.accept wires)).respValid = false := by
  rw [accept_eq unit wires request]
  obtain ⟨running, silent, -⟩ := progress_before (summing (latchA wires) (latchB wires)
    (wires.reqOp == opMul) wires.reqWord 0 0 0 0) rfl rfl rfl cycles more
  exact ⟨running, silent⟩

/-- The product that an operation has latched. -/
theorem latched_product (wires : MulWires) :
    (latchA wires).toInt * (latchB wires).toInt =
      match wires.reqOp with
      | 0 | 1 => wires.operandA.toInt * wires.operandB.toInt
      | 2 => wires.operandA.toInt * wires.operandB.toNat
      | 3 => (wires.operandA.toNat * wires.operandB.toNat : Nat) := by
  have codes : ∀ code : BitVec 2, code = 0 ∨ code = 1 ∨ code = 2 ∨ code = 3 := by decide
  rw [latchA_toInt, latchB_toInt]
  rcases codes wires.reqOp with op | op | op | op <;> simp [op, opMulhu]

theorem ofInt_low (product : Int) :
    (BitVec.ofInt 128 product).extractLsb' 0 64 = BitVec.ofInt 64 product := by
  apply BitVec.eq_of_toNat_eq
  rw [BitVec.extractLsb'_toNat, Nat.shiftRight_zero, BitVec.toNat_ofInt, BitVec.toNat_ofInt]
  omega

theorem ofInt_high (product : Int) :
    (BitVec.ofInt 128 product).extractLsb' 64 64 = BitVec.ofInt 64 (product / 2 ^ 64) := by
  apply BitVec.eq_of_toNat_eq
  rw [BitVec.extractLsb'_toNat, Nat.shiftRight_eq_div_pow, BitVec.toNat_ofInt,
    BitVec.toNat_ofInt]
  omega

/-- The lower halves of latched operands are those of the operands. -/
theorem latched_word (wires : MulWires) :
    BitVec.ofInt 32 ((latchA wires).toInt * (latchB wires).toInt) =
      wires.operandA.setWidth 32 * wires.operandB.setWidth 32 := by
  have lower : ∀ (sign : Bool) (x : Word), BitVec.ofInt 32 (x.cons sign).toInt = x.setWidth 32 := by
    intro sign x
    change (x.cons sign).signExtend 32 = _
    ext place inside
    simp [BitVec.getElem_signExtend, BitVec.getElem_cons, show place < 65 by omega,
      show ¬place = 64 by omega]
    exact (BitVec.getLsbD_eq_getElem (by omega)).symm
  rw [BitVec.ofInt_mul, latchA, latchB, lower, lower]

theorem prescribed_low (wires : MulWires) (op : wires.reqOp = opMul) :
    Multiplication.prescribed false wires.reqOp wires.operandA wires.operandB =
      BitVec.ofInt 64 ((latchA wires).toInt * (latchB wires).toInt) := by
  have product := latched_product wires
  rw [op] at product ⊢
  rw [product]
  exact ofInt_low _

theorem prescribed_high (wires : MulWires) (op : wires.reqOp ≠ opMul) :
    Multiplication.prescribed false wires.reqOp wires.operandA wires.operandB =
      BitVec.ofInt 64 ((latchA wires).toInt * (latchB wires).toInt / 2 ^ 64) := by
  have product := latched_product wires
  have codes : ∀ code : BitVec 2, code ≠ opMul → code = 1 ∨ code = 2 ∨ code = 3 := by decide
  rcases codes wires.reqOp op with code | code | code <;> rw [code] at product ⊢ <;>
    rw [product] <;> exact ofInt_high _

/-- The products of an accepted operation give its value. -/
theorem accept_finishes (unit : Multiplier) (wires : MulWires) (request : wires.reqValid = true) :
    progress^[products wires.reqWord (wires.reqOp == opMul)] (unit.accept wires) =
      done (latchA wires) (latchB wires) (wires.reqOp == opMul) wires.reqWord
        (Multiplication.prescribed wires.reqWord wires.reqOp wires.operandA wires.operandB) := by
  have start := accept_sums unit wires request
  cases word : wires.reqWord with
  | true =>
    rw [word] at start
    have last := finish_word (latchA_range wires) (latchB_range wires) start
    rw [value1_eq, latched_word] at last
    exact last
  | false =>
    rw [word] at start
    by_cases op : wires.reqOp = opMul
    · rw [show (wires.reqOp == opMul) = true from beq_iff_eq.mpr op] at start ⊢
      have last := finish_low (latchA_range wires) (latchB_range wires) start
      rw [value3_eq, ← prescribed_low wires op] at last
      exact last
    · rw [show (wires.reqOp == opMul) = false from beq_eq_false_iff_ne.mpr op] at start ⊢
      have last := finish_high (latchA_range wires) (latchB_range wires) start
      rw [value6_eq, ← prescribed_high wires op] at last
      exact last

/-- The clock edges from a request to its answer. -/
def latency (wires : MulWires) : Nat := products wires.reqWord (wires.reqOp == opMul) + 1

variable {unit : Multiplier} {wires : Nat → MulWires}

theorem after_progress (idle : unit.state = false) (asks : (wires 0).reqValid = true)
    (cycles : Nat) (within : cycles < latency (wires 0))
    (free : ∀ cycle ≤ cycles, (wires cycle).rst = false) :
    unit.after wires (cycles + 1) = progress^[cycles] (unit.accept (wires 0)) := by
  induction cycles with
  | zero =>
    change step unit (wires 0) = unit.accept (wires 0)
    rw [step, free 0 (Nat.le_refl 0), idle]
    rfl
  | succ cycles before =>
    have running := (accept_busy unit _ asks cycles (by unfold latency at within; omega)).1
    rw [after, before (by omega) (fun cycle early => free cycle (by omega)), step,
      free (cycles + 1) (Nat.le_refl _), running, Function.iterate_succ_apply']
    rfl

/-- Until its answer a request keeps the unit busy and silent. -/
theorem after_busy (idle : unit.state = false) (asks : (wires 0).reqValid = true)
    {cycle : Nat} (positive : 0 < cycle) (early : cycle < latency (wires 0))
    (free : ∀ before < cycle, (wires before).rst = false) :
    (unit.after wires cycle).state = true ∧ (unit.after wires cycle).respValid = false := by
  obtain ⟨taken, rfl⟩ : ∃ taken, cycle = taken + 1 := ⟨cycle - 1, by omega⟩
  rw [after_progress idle asks taken (by omega) fun before past => free before (by omega)]
  exact accept_busy unit _ asks taken (by unfold latency at early; omega)

/-- The answer to a request; the unit's registers may have held anything before. -/
theorem after_latency (idle : unit.state = false) (asks : (wires 0).reqValid = true)
    (free : ∀ cycle < latency (wires 0), (wires cycle).rst = false) :
    unit.after wires (latency (wires 0)) =
      done (latchA (wires 0)) (latchB (wires 0)) ((wires 0).reqOp == opMul) (wires 0).reqWord
        (Multiplication.prescribed (wires 0).reqWord (wires 0).reqOp (wires 0).operandA
          (wires 0).operandB) := by
  rw [← accept_finishes unit (wires 0) asks]
  exact after_progress idle asks _ (Nat.lt_succ_self _) fun cycle past =>
    free cycle (Nat.lt_succ_of_le past)

/-- The request of the first cycle is answered once, within seventeen cycles in which the unit is
busy, with what is prescribed for it. -/
def Multiplies (unit : Multiplier) (wires : Nat → MulWires) : Prop :=
  ∃ answer, 0 < answer ∧ answer ≤ 17 ∧
    (∀ cycle, 0 < cycle → cycle < answer →
      (unit.after wires cycle).state = true ∧ (unit.after wires cycle).respValid = false) ∧
    (unit.after wires answer).state = false ∧ (unit.after wires answer).respValid = true ∧
    (unit.after wires answer).respValue =
      Multiplication.prescribed (wires 0).reqWord (wires 0).reqOp (wires 0).operandA
        (wires 0).operandB ∧
    (unit.after wires (answer + 1)).respValid = false

/-- The multiplier computes what is prescribed, whatever its registers held when it was idle. -/
theorem multiplies (idle : unit.state = false) (asks : (wires 0).reqValid = true)
    (free : ∀ cycle < latency (wires 0), (wires cycle).rst = false) : unit.Multiplies wires := by
  have answer := after_latency idle asks free
  refine ⟨latency (wires 0), Nat.succ_pos _, ?_, fun cycle positive early => ?_, ?_, ?_, ?_, ?_⟩
  · unfold latency products
    split
    · decide
    · split <;> decide
  · exact after_busy idle asks positive early fun before past => free before (by omega)
  · rw [answer]
    rfl
  · rw [answer]
    rfl
  · rw [answer]
    rfl
  · rw [after, answer, step]
    cases (wires (latency (wires 0))).rst with
    | true => rfl
    | false =>
      change (accept (done ..) _).respValid = false
      unfold accept
      split <;> rfl

/-- `MULHSU` of the least signed word and the greatest unsigned one, on used registers. -/
theorem multiplies_mixed :
    Multiplies ⟨false, 3, 1, 5, 7, true, true, 9, true, 11⟩
      (fun _ => ⟨false, BitVec.intMin 64, BitVec.allOnes 64, 2, false, true⟩) :=
  multiplies rfl rfl fun _ _ => rfl

end Request

end GreenRio.Multiplier
