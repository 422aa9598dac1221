import GreenRio.Division
import GreenRio.RestoringDivision

set_option autoImplicit false

namespace GreenRio

/-- The registers of `div`. -/
structure Divider where
  state : BitVec 2
  loop : BitVec 6
  a : Word
  b : Word
  quo : Word
  rem : Word
  quoNeg : Bool
  remNeg : Bool
  opWord : Bool
  opRem : Bool
  respResult : Word
  respValid : Bool

/-- The wires into `div`. -/
structure DivWires where
  rst : Bool
  operand1 : Word
  operand2 : Word
  divOp : BitVec 3
  reqValid : Bool

namespace Divider

section Operands

variable (op : BitVec 3)

def opUnsigned : Bool := op.getLsbD 0

def wantsRem : Bool := op.getLsbD 1

/-- `a_sign_64`, `a_mag_64` and their counterparts for the lower half of an operand. -/
def sign64 (operand : Word) : Bool := if opUnsigned op then false else operand.msb

def mag64 (operand : Word) : Word := if sign64 op operand then -operand else operand

def sign32 (operand : Word) : Bool := if opUnsigned op then false else operand.getLsbD 31

def ext (operand : Word) : Word :=
  (if sign32 op operand then BitVec.allOnes 32 else 0#32) ++ operand.setWidth 32

def mag32 (operand : Word) : Word := if sign32 op operand then -ext op operand else ext op operand

/-- `op_word`: asked for, or taken because the upper halves of both magnitudes are zero. -/
def isWord (operand1 operand2 : Word) : Bool :=
  op.getLsbD 2 ||
    ((mag64 op operand1).extractLsb' 32 32 == 0 && (mag64 op operand2).extractLsb' 32 32 == 0)

end Operands

namespace Wires

variable (wires : DivWires)

def opWord : Bool := isWord wires.divOp wires.operand1 wires.operand2

def aMag : Word :=
  if opWord wires then mag32 wires.divOp wires.operand1 else mag64 wires.divOp wires.operand1

def bMag : Word :=
  if opWord wires then mag32 wires.divOp wires.operand2 else mag64 wires.divOp wires.operand2

def aSign : Bool :=
  if opWord wires then sign32 wires.divOp wires.operand1 else sign64 wires.divOp wires.operand1

def bSign : Bool :=
  if opWord wires then sign32 wires.divOp wires.operand2 else sign64 wires.divOp wires.operand2

/-- The dividend with its highest digit first. -/
def aRev : Word :=
  if opWord wires then (((aMag wires).setWidth 32).reverse).setWidth 64 else (aMag wires).reverse

end Wires

def stIdle : BitVec 2 := 0
def stCalculate : BitVec 2 := 1
def stOutput : BitVec 2 := 2

def reqReady (unit : Divider) : Bool := unit.state == stIdle

def remShift (unit : Divider) : Word := (unit.rem.setWidth 63).concat (unit.a.getLsbD 0)

def result64 (unit : Divider) : Word :=
  if unit.opRem then if unit.remNeg then -unit.rem else unit.rem
  else if unit.quoNeg then -unit.quo else unit.quo

/-- `ST_IDLE`. -/
def accept (unit : Divider) (wires : DivWires) : Divider :=
  if wires.reqValid then
    { unit with
      respValid := false
      state := stCalculate
      loop := if Wires.opWord wires then 31 else 63
      quo := 0
      rem := 0
      a := Wires.aRev wires
      b := Wires.bMag wires
      quoNeg := (Wires.aSign wires ^^ Wires.bSign wires) && Wires.bMag wires != 0
      remNeg := Wires.aSign wires
      opWord := Wires.opWord wires
      opRem := wantsRem wires.divOp }
  else { unit with respValid := false }

/-- `ST_CALCULATE`. -/
def calculate (unit : Divider) : Divider :=
  let fits := unit.b ≤ unit.remShift
  { unit with
    a := (unit.a.extractLsb' 1 63).setWidth 64
    rem := if fits then unit.remShift - unit.b else unit.remShift
    quo := (unit.quo.setWidth 63).concat (decide fits)
    loop := unit.loop - 1
    state := if unit.loop = 0 then stOutput else stCalculate }

/-- `ST_OUTPUT`. -/
def output (unit : Divider) : Divider :=
  { unit with
    state := stIdle
    respValid := true
    respResult :=
      if unit.opWord then (unit.result64.setWidth 32).signExtend 64 else unit.result64 }

/-- One clock edge. -/
def step (unit : Divider) (wires : DivWires) : Divider :=
  let next :=
    if unit.state = stIdle then unit.accept wires
    else if unit.state = stCalculate then unit.calculate
    else if unit.state = stOutput then unit.output
    else { unit with state := stIdle }
  if wires.rst then { next with respValid := false, state := stIdle } else next

/-- The registers after a number of cycles. -/
def after (unit : Divider) (wires : Nat → DivWires) : Nat → Divider
  | 0 => unit
  | cycle + 1 => (unit.after wires cycle).step (wires cycle)

section Magnitudes

open Division

variable (op : BitVec 3) (operand : Word)

theorem sign64_eq : sign64 op operand = negative (opUnsigned op) operand := by
  unfold sign64 negative
  cases opUnsigned op <;> rfl

theorem sign32_eq : sign32 op operand = negative (opUnsigned op) (operand.setWidth 32) := by
  have top : (operand.setWidth 32).msb = operand.getLsbD 31 := by
    simp [BitVec.msb_eq_getLsbD_last]
  unfold sign32 negative
  rw [top]
  cases opUnsigned op <;> rfl

theorem mag64_toNat : (mag64 op operand).toNat = magnitude (opUnsigned op) operand := by
  rw [mag64, sign64_eq, unsigned_toNat]

/-- The lower half of an operand, extended as the operation reads it. -/
theorem ext_eq : ext op operand =
    if opUnsigned op then (operand.setWidth 32).setWidth 64
    else (operand.setWidth 32).signExtend 64 := by
  unfold ext sign32
  cases opUnsigned op with
  | true =>
    change (0#32 ++ operand.setWidth 32 : Word) = (operand.setWidth 32).setWidth 64
    ext place inside
    rw [BitVec.getElem_append]
    split <;> simp <;> omega
  | false =>
    have top : (operand.setWidth 32).msb = operand.getLsbD 31 := by
      simp [BitVec.msb_eq_getLsbD_last]
    change ((if operand.getLsbD 31 = true then BitVec.allOnes 32 else 0#32) ++
      operand.setWidth 32 : Word) = (operand.setWidth 32).signExtend 64
    ext place inside
    rw [BitVec.getElem_append, BitVec.getElem_signExtend, top]
    split
    · simp
    · cases operand.getLsbD 31 with
      | false => simp
      | true => rw [if_pos rfl, BitVec.getElem_allOnes]

theorem mag32_toNat :
    (mag32 op operand).toNat = magnitude (opUnsigned op) (operand.setWidth 32) := by
  have same : sign32 op operand = negative (opUnsigned op) (ext op operand) := by
    rw [sign32_eq, ext_eq]
    cases opUnsigned op with
    | true => rfl
    | false => simp [negative, BitVec.msb_signExtend]
  rw [mag32, same, unsigned_toNat, ext_eq]
  cases opUnsigned op with
  | true =>
    have inside := (operand.setWidth 32).isLt
    simp only [magnitude, ↓reduceIte]
    rw [BitVec.toNat_setWidth, Nat.mod_eq_of_lt (by omega)]
  | false => simp [magnitude, BitVec.toInt_signExtend_of_le]

end Magnitudes

section Loop

open RestoringDivision

variable (wires : DivWires)

/-- How many digits of the dividend the loop takes. -/
def digits : Nat := if Wires.opWord wires then 32 else 64

theorem digits_le : digits wires ≤ 64 := by
  unfold digits
  split <;> omega

theorem aMag_lt : (Wires.aMag wires).toNat < 2 ^ digits wires := by
  unfold Wires.aMag digits
  split
  · rw [mag32_toNat]
    exact Division.magnitude_lt _ _
  · exact (mag64 wires.divOp wires.operand1).isLt

/-- The reversed dividend offers its highest digit first. -/
theorem aRev_bit {place : Nat} (inside : place < digits wires) :
    (Wires.aRev wires).getLsbD place =
      (Wires.aMag wires).toNat.testBit (digits wires - 1 - place) := by
  unfold Wires.aRev digits at *
  split at inside
  · rename_i word
    rw [if_pos word, if_pos word, BitVec.getLsbD_setWidth, BitVec.getLsbD_reverse,
      BitVec.getMsbD_eq_getLsbD, BitVec.getLsbD_setWidth]
    simp [inside, show place < 64 by omega, show 32 - 1 - place < 32 by omega, BitVec.getLsbD]
  · rename_i long
    rw [if_neg long, if_neg long, BitVec.getLsbD_reverse, BitVec.getMsbD_eq_getLsbD]
    simp [inside, BitVec.getLsbD]

/-- The registers once a number of digits of an accepted request are taken. -/
structure Calculating (taken : Nat) (unit : Divider) : Prop where
  state : unit.state = if taken = digits wires then stOutput else stCalculate
  loop : taken < digits wires → unit.loop.toNat = digits wires - 1 - taken
  pending : ∀ place < digits wires - taken, unit.a.getLsbD place =
    (Wires.aMag wires).toNat.testBit (digits wires - 1 - taken - place)
  divisor : unit.b = Wires.bMag wires
  progress : Partial (Wires.bMag wires).toNat
    ((Wires.aMag wires).toNat / 2 ^ (digits wires - taken)) taken unit.quo.toNat unit.rem.toNat
  quoNeg : unit.quoNeg =
    ((Wires.aSign wires ^^ Wires.bSign wires) && Wires.bMag wires != 0)
  remNeg : unit.remNeg = Wires.aSign wires
  opWord : unit.opWord = Wires.opWord wires
  opRem : unit.opRem = wantsRem wires.divOp
  silent : unit.respValid = false

theorem accept_calculating (unit : Divider) (asks : wires.reqValid = true) :
    Calculating wires 0 (unit.accept wires) := by
  have none : (Wires.aMag wires).toNat / 2 ^ digits wires = 0 :=
    Nat.div_eq_of_lt (aMag_lt wires)
  unfold accept
  rw [if_pos asks]
  refine ⟨?_, fun _ => ?_, fun place inside => ?_, rfl, ?_, rfl, rfl, rfl, rfl, rfl⟩
  · have positive : digits wires ≠ 0 := by
      unfold digits
      split <;> omega
    rw [if_neg (Ne.symm positive)]
  · unfold digits
    split <;> rfl
  · exact aRev_bit wires inside
  · rw [Nat.sub_zero, none]
    exact start _

variable {wires} {unit : Divider} {taken : Nat}

theorem high_lt (wires : DivWires) {taken : Nat} (within : taken ≤ digits wires) :
    (Wires.aMag wires).toNat / 2 ^ (digits wires - taken) < 2 ^ taken := by
  apply Nat.div_lt_of_lt_mul
  rw [← Nat.pow_add, Nat.sub_add_cancel within]
  exact aMag_lt wires

/-- Bringing the next digit down does not overflow: what is read so far has as many digits. -/
theorem Calculating.remShift_eq (calculating : Calculating wires taken unit)
    (more : taken < digits wires) : unit.remShift.toNat = 2 * unit.rem.toNat +
      ((Wires.aMag wires).toNat.testBit (digits wires - (taken + 1))).toNat := by
  have high := high_lt wires (Nat.le_of_lt more)
  have small := calculating.progress.remainder_le
  have power : 2 ^ taken ≤ 2 ^ 63 :=
    Nat.pow_le_pow_right (by decide) (by have := digits_le wires; omega)
  rw [remShift, BitVec.toNat_concat, BitVec.toNat_setWidth, Nat.mod_eq_of_lt (by omega),
    calculating.pending 0 (by omega), Nat.mul_comm, Nat.sub_zero,
    show digits wires - 1 - taken = digits wires - (taken + 1) by omega]

theorem Calculating.quo_shift (calculating : Calculating wires taken unit)
    (more : taken < digits wires) (bit : Bool) :
    ((unit.quo.setWidth 63).concat bit).toNat = 2 * unit.quo.toNat + bit.toNat := by
  have high := high_lt wires (Nat.le_of_lt more)
  have small := calculating.progress.quotient_lt high
  have power : 2 ^ taken ≤ 2 ^ 63 :=
    Nat.pow_le_pow_right (by decide) (by have := digits_le wires; omega)
  rw [BitVec.toNat_concat, BitVec.toNat_setWidth, Nat.mod_eq_of_lt (by omega), Nat.mul_comm]

/-- One cycle of the loop takes one digit. -/
theorem Calculating.calculate (calculating : Calculating wires taken unit)
    (more : taken < digits wires) : Calculating wires (taken + 1) unit.calculate := by
  have loop := calculating.loop more
  have bound := digits_le wires
  have shifted := calculating.remShift_eq more
  have high := high_succ (Wires.aMag wires).toNat (digits wires - (taken + 1))
  rw [show digits wires - (taken + 1) + 1 = digits wires - taken by omega] at high
  refine ⟨?_, fun further => ?_, fun place inside => ?_, calculating.divisor, ?_,
    calculating.quoNeg, calculating.remNeg, calculating.opWord, calculating.opRem,
    calculating.silent⟩
  · have last : unit.loop = 0 ↔ taken + 1 = digits wires := by
      rw [← BitVec.toNat_inj, loop]
      change digits wires - 1 - taken = 0 ↔ _
      omega
    change (if unit.loop = 0 then stOutput else stCalculate) = _
    simp only [last]
  · change (unit.loop - 1).toNat = _
    rw [BitVec.toNat_sub, loop]
    change (2 ^ 6 - 1 + (digits wires - 1 - taken)) % 2 ^ 6 = _
    omega
  · change ((unit.a.extractLsb' 1 63).setWidth 64).getLsbD place = _
    rw [BitVec.getLsbD_setWidth, BitVec.getLsbD_extractLsb',
      calculating.pending (1 + place) (by omega)]
    simp only [show place < 64 by omega, show place < 63 by omega, decide_true, Bool.true_and]
    congr 1
    omega
  · have fits : unit.b ≤ unit.remShift ↔ (Wires.bMag wires).toNat ≤ 2 * unit.rem.toNat +
        ((Wires.aMag wires).toNat.testBit (digits wires - (taken + 1))).toNat := by
      rw [BitVec.le_def, shifted, calculating.divisor]
    have digit := Bool.toNat_lt ((Wires.aMag wires).toNat.testBit (digits wires - (taken + 1)))
    rw [high]
    unfold Divider.calculate
    by_cases enough : unit.b ≤ unit.remShift
    · have difference : (unit.remShift - unit.b).toNat = 2 * unit.rem.toNat +
          ((Wires.aMag wires).toNat.testBit (digits wires - (taken + 1))).toNat -
            (Wires.bMag wires).toNat := by
        rw [BitVec.toNat_sub_of_le enough, shifted, calculating.divisor]
      simp only [enough, ↓reduceIte, decide_true, calculating.quo_shift more, Bool.toNat_true,
        difference]
      exact calculating.progress.fits digit (fits.mp enough)
    · have below := Nat.lt_of_not_le (mt fits.mpr enough)
      simp only [enough, ↓reduceIte, decide_false, calculating.quo_shift more, Bool.toNat_false,
        Nat.add_zero, shifted]
      exact calculating.progress.passes below

end Loop

section Result

open Division

/-- What the unit computes: the operation at the width it takes. -/
def computed (op : BitVec 3) (operand1 operand2 : Word) : Word :=
  if isWord op operand1 operand2 then
    (divide (wantsRem op) (opUnsigned op) (operand1.setWidth 32)
      (operand2.setWidth 32)).signExtend 64
  else divide (wantsRem op) (opUnsigned op) operand1 operand2

variable {wires : DivWires} {unit : Divider}

theorem result64_setWidth (unit : Divider) {width : Nat} (narrow : width ≤ 64) :
    unit.result64.setWidth width =
      if unit.opRem then
        if unit.remNeg then -BitVec.ofNat width unit.rem.toNat
        else BitVec.ofNat width unit.rem.toNat
      else if unit.quoNeg then -BitVec.ofNat width unit.quo.toNat
        else BitVec.ofNat width unit.quo.toNat := by
  unfold result64
  rw [BitVec.ofNat_toNat, BitVec.ofNat_toNat]
  split <;> split
  · exact BitVec.setWidth_neg_of_le narrow
  · rfl
  · exact BitVec.setWidth_neg_of_le narrow
  · rfl

/-- Once all digits are taken the registers hold the result at the width of the operation. -/
theorem Calculating.divide_eq (calculating : Calculating wires (digits wires) unit) {width : Nat}
    (narrow : width ≤ 64) (x y : BitVec width) (size : digits wires = width)
    (left : (Wires.aMag wires).toNat = magnitude (opUnsigned wires.divOp) x)
    (right : (Wires.bMag wires).toNat = magnitude (opUnsigned wires.divOp) y)
    (leftSign : Wires.aSign wires = negative (opUnsigned wires.divOp) x)
    (rightSign : Wires.bSign wires = negative (opUnsigned wires.divOp) y) :
    unit.result64.setWidth width =
      divide (wantsRem wires.divOp) (opUnsigned wires.divOp) x y := by
  have nonzero : (Wires.bMag wires != 0) = (magnitude (opUnsigned wires.divOp) y != 0) := by
    rw [← right, Bool.eq_iff_iff, bne_iff_ne, bne_iff_ne, ne_eq, ne_eq, ← BitVec.toNat_inj]
    rfl
  obtain ⟨quo, rem⟩ := calculating.progress
  rw [Nat.sub_self, Nat.pow_zero, Nat.div_one, left, right] at quo rem
  rw [result64_setWidth unit narrow, calculating.opRem, calculating.remNeg, calculating.quoNeg,
    nonzero, quo, rem, leftSign, rightSign, size, divide, remainder_eq, quotient_eq]

theorem Calculating.output_result (calculating : Calculating wires (digits wires) unit) :
    unit.output.respResult = computed wires.divOp wires.operand1 wires.operand2 := by
  have whole : unit.output.respResult =
      if unit.opWord then (unit.result64.setWidth 32).signExtend 64 else unit.result64 := rfl
  rw [whole, calculating.opWord, computed]
  by_cases word : Wires.opWord wires = true
  · have short : isWord wires.divOp wires.operand1 wires.operand2 = true := word
    rw [if_pos word, if_pos short]
    congr 1
    apply calculating.divide_eq (by omega)
    · rw [digits, if_pos word]
    · rw [Wires.aMag, if_pos word, mag32_toNat]
    · rw [Wires.bMag, if_pos word, mag32_toNat]
    · rw [Wires.aSign, if_pos word, sign32_eq]
    · rw [Wires.bSign, if_pos word, sign32_eq]
  · have long : ¬ isWord wires.divOp wires.operand1 wires.operand2 = true := word
    rw [if_neg word, if_neg long, ← BitVec.setWidth_eq unit.result64]
    apply calculating.divide_eq (by omega)
    · rw [digits, if_neg word]
    · rw [Wires.aMag, if_neg word, mag64_toNat]
    · rw [Wires.bMag, if_neg word, mag64_toNat]
    · rw [Wires.aSign, if_neg word, sign64_eq]
    · rw [Wires.bSign, if_neg word, sign64_eq]

end Result

section Run

variable {unit : Divider} {wires : Nat → DivWires}

/-- No reset, and the loop runs: a cycle takes one digit. -/
theorem after_calculating (idle : unit.state = stIdle) (asks : (wires 0).reqValid = true) :
    ∀ taken ≤ digits (wires 0), (∀ cycle ≤ taken, (wires cycle).rst = false) →
      Calculating (wires 0) taken (unit.after wires (taken + 1)) := by
  intro taken
  induction taken with
  | zero =>
    intro _ free
    have stepped : unit.after wires 1 = unit.accept (wires 0) := by
      simp only [after, step, idle, free 0 (Nat.le_refl 0), ↓reduceIte, Bool.false_eq_true]
    rw [stepped]
    exact accept_calculating (wires 0) unit asks
  | succ taken ih =>
    intro within free
    have before := ih (by omega) fun cycle past => free cycle (by omega)
    have state := before.state
    rw [if_neg (by omega)] at state
    have stepped : unit.after wires (taken + 1 + 1) =
        (unit.after wires (taken + 1)).calculate := by
      rw [after, step, state, free (taken + 1) (Nat.le_refl _)]
      rfl
    rw [stepped]
    exact before.calculate (by omega)

/-- The cycle in which the answer to a request stands: one to accept it, one for each digit and one
to put it out. -/
def latency (wires : DivWires) : Nat := digits wires + 2

/-- Until its answer a request keeps the unit busy and silent. -/
theorem after_busy (idle : unit.state = stIdle) (asks : (wires 0).reqValid = true)
    {cycle : Nat} (positive : 0 < cycle) (early : cycle < latency (wires 0))
    (free : ∀ before < cycle, (wires before).rst = false) :
    (unit.after wires cycle).state ≠ stIdle ∧ (unit.after wires cycle).respValid = false := by
  obtain ⟨taken, rfl⟩ : ∃ taken, cycle = taken + 1 := ⟨cycle - 1, by omega⟩
  have busy := after_calculating idle asks taken (by unfold latency at early; omega)
    fun before past => free before (by omega)
  refine ⟨?_, busy.silent⟩
  rw [busy.state]
  split <;> decide

/-- The answer to a request. -/
theorem after_latency (idle : unit.state = stIdle) (asks : (wires 0).reqValid = true)
    (free : ∀ cycle < latency (wires 0), (wires cycle).rst = false) :
    (unit.after wires (latency (wires 0))).state = stIdle ∧
    (unit.after wires (latency (wires 0))).respValid = true ∧
    (unit.after wires (latency (wires 0))).respResult =
      computed (wires 0).divOp (wires 0).operand1 (wires 0).operand2 := by
  have done := after_calculating idle asks (digits (wires 0)) (Nat.le_refl _)
    fun cycle past => free cycle (by unfold latency; omega)
  have state := done.state
  rw [if_pos rfl] at state
  have stepped : unit.after wires (latency (wires 0)) =
      (unit.after wires (digits (wires 0) + 1)).output := by
    rw [latency, after, step, state, free _ (Nat.lt_succ_self _)]
    rfl
  rw [stepped]
  exact ⟨rfl, rfl, done.output_result⟩

/-- An accepted request is answered once, and the unit is idle again. -/
theorem after_answers (idle : unit.state = stIdle) (asks : (wires 0).reqValid = true)
    (free : ∀ cycle, (wires cycle).rst = false) :
    (∀ cycle, 0 < cycle → cycle < latency (wires 0) →
      (unit.after wires cycle).state ≠ stIdle ∧ (unit.after wires cycle).respValid = false) ∧
    (unit.after wires (latency (wires 0))).state = stIdle ∧
    (unit.after wires (latency (wires 0))).respValid = true ∧
    (unit.after wires (latency (wires 0))).respResult =
      computed (wires 0).divOp (wires 0).operand1 (wires 0).operand2 ∧
    (unit.after wires (latency (wires 0) + 1)).respValid = false := by
  obtain ⟨rests, valid, result⟩ := after_latency idle asks fun cycle _ => free cycle
  refine ⟨fun cycle positive early => ?_, rests, valid, result, ?_⟩
  · exact after_busy idle asks positive early fun before _ => free before
  · rw [after, step, rests, free]
    change (Divider.accept _ _).respValid = false
    unfold accept
    split <;> rfl

end Run

end Divider

end GreenRio
