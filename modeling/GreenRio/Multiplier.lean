import GreenRio.Instruction
import GreenRio.PartSelect

set_option autoImplicit false

namespace GreenRio

/-- The registers of `mul`; `state` is set in `STATEPROGRESS`. -/
structure Multiplier where
  state : Bool
  aIdx : BitVec 2
  bIdx : BitVec 2
  a : BitVec 65
  b : BitVec 65
  opLow : Bool
  opWord : Bool
  accum : BitVec 35
  respValid : Bool
  respValue : Word

/-- The wires into `mul`. -/
structure MulWires where
  rst : Bool
  operandA : Word
  operandB : Word
  reqOp : BitVec 2
  reqWord : Bool
  reqValid : Bool

namespace Multiplier

open PartSelect (put)

def opMul : BitVec 2 := 0
def opMulhu : BitVec 2 := 3

def reset : Multiplier := ⟨false, 0, 0, 0, 0, false, false, 0, false, 0⟩

def reqReady (unit : Multiplier) : Bool := !unit.state

/-- One of the four digits of an operand; the highest one carries its sign. -/
def macOp (index : BitVec 2) (operand : BitVec 65) : BitVec 17 :=
  match index with
  | 0 => (operand.extractLsb' 0 16).setWidth 17
  | 1 => (operand.extractLsb' 16 16).setWidth 17
  | 2 => (operand.extractLsb' 32 16).setWidth 17
  | 3 => operand.extractLsb' 48 17

def mac (a b : BitVec 65) (i j : BitVec 2) (accum : BitVec 35) : BitVec 35 :=
  accum + (macOp i a).signExtend 35 * (macOp j b).signExtend 35

/-- `{{16{mac_prod[34]}}, mac_prod[34:16]}`. -/
def carry (macProd : BitVec 35) : BitVec 35 := (macProd.extractLsb' 16 19).signExtend 35

/-- The operands as they are latched: with their sign, if the operation reads one. -/
def latchA (wires : MulWires) : BitVec 65 :=
  wires.operandA.cons (if wires.reqOp != opMulhu then wires.operandA.msb else false)

def latchB (wires : MulWires) : BitVec 65 :=
  wires.operandB.cons (if wires.reqOp.getLsbD 1 == false then wires.operandB.msb else false)

/-- `STATEIDLE`. -/
def accept (unit : Multiplier) (wires : MulWires) : Multiplier :=
  let quiet := { unit with
    aIdx := 0, bIdx := 0, accum := 0, respValid := false, respValue := 0 }
  if wires.reqValid then
    { quiet with
      state := true
      a := latchA wires
      b := latchB wires
      opLow := wires.reqOp == opMul
      opWord := wires.reqWord }
  else quiet

/-- `STATEPROGRESS`: one product is added; at the end of a column its digit is put out and the sum
moves down. -/
def progress (unit : Multiplier) : Multiplier :=
  let macProd := mac unit.a unit.b unit.aIdx unit.bIdx unit.accum
  let digit := macProd.extractLsb' 0 16
  let add (aIdx bIdx : BitVec 2) : Multiplier :=
    { unit with aIdx := aIdx, bIdx := bIdx, accum := macProd, respValid := false }
  let emit (aIdx bIdx : BitVec 2) (value : Word) : Multiplier :=
    { unit with
      aIdx := aIdx, bIdx := bIdx, accum := carry macProd, respValid := false,
      respValue := value }
  let finish (value : Word) : Multiplier :=
    { unit with
      state := false, aIdx := 0, bIdx := 0, accum := 0, respValid := true, respValue := value }
  match unit.aIdx, unit.bIdx with
  | 0, 0 => emit 1 0 (put unit.respValue 0 digit)
  | 1, 0 => add 0 1
  | 0, 1 =>
    let value := put unit.respValue 16 (digit.signExtend 48)
    if unit.opWord then finish value else emit 0 2 value
  | 0, 2 => add 1 1
  | 1, 1 => add 2 0
  | 2, 0 => emit 3 0 (put unit.respValue 32 digit)
  | 3, 0 => add 2 1
  | 2, 1 => add 1 2
  | 1, 2 => add 0 3
  | 0, 3 =>
    let value := put unit.respValue 48 digit
    if unit.opLow then finish value else emit 1 3 value
  | 1, 3 => add 2 2
  | 2, 2 => add 3 1
  | 3, 1 => emit 3 2 (put unit.respValue 0 digit)
  | 3, 2 => add 2 3
  | 2, 3 => emit 3 3 (put unit.respValue 16 digit)
  | 3, 3 => finish (put unit.respValue 32 (macProd.extractLsb' 0 32))

/-- One clock edge; the reset is taken with it. -/
def step (unit : Multiplier) (wires : MulWires) : Multiplier :=
  if wires.rst then reset else if unit.state then unit.progress else unit.accept wires

/-- The registers after a number of cycles. -/
def after (unit : Multiplier) (wires : Nat → MulWires) : Nat → Multiplier
  | 0 => unit
  | cycle + 1 => (unit.after wires cycle).step (wires cycle)

end Multiplier

end GreenRio
