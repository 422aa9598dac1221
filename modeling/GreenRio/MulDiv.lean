import GreenRio.Divider
import GreenRio.IterativeUnit
import GreenRio.Multiplication

set_option autoImplicit false

namespace GreenRio

/-- The registers of `md` and its two units. -/
structure MulDiv where
  active : Bool
  activeUnit : Bool
  prdAddr : PhyReg
  robIndex : RobIndex
  mul : Multiplier
  div : Divider

/-- The wires into `md`. -/
structure MdWires where
  rst : Bool
  trap : Bool
  prdAddr : PhyReg
  oprd1 : Word
  oprd2 : Word
  robIndex : RobIndex
  funcSel : BitVec 3
  muldiv : Bool
  reqValid : Bool

namespace MulDiv

def mdMul : Bool := false
def mdDiv : Bool := true

variable (unit : MulDiv) (wires : MdWires)

def reqReady : Bool := !unit.active

def mulWires : MulWires where
  rst := wires.rst || wires.trap
  operandA := wires.oprd1
  operandB := wires.oprd2
  reqOp := wires.funcSel.extractLsb' 0 2
  reqWord := wires.funcSel.getLsbD 2
  reqValid := wires.reqValid && wires.muldiv == mdMul && !wires.trap && !unit.active

def divWires : DivWires where
  rst := wires.rst || wires.trap
  operand1 := wires.oprd1
  operand2 := wires.oprd2
  divOp := wires.funcSel
  reqValid := wires.reqValid && wires.muldiv == mdDiv && !wires.trap && !unit.active

def respValid : Bool :=
  (if unit.activeUnit == mdMul then unit.mul.respValid else unit.div.respValid) && !wires.trap

def wrbData : Word :=
  if unit.activeUnit == mdMul then unit.mul.respValue else unit.div.respResult

/-- One clock edge. -/
def step : MulDiv :=
  let units := { unit with
    mul := unit.mul.step (mulWires unit wires)
    div := unit.div.step (divWires unit wires) }
  if wires.rst || wires.trap then { units with active := false }
  else if !unit.active then
    if wires.reqValid && unit.reqReady && !wires.trap then
      { units with
        active := true
        activeUnit := wires.muldiv
        prdAddr := wires.prdAddr
        robIndex := wires.robIndex }
    else units
  else if unit.div.reqReady && unit.mul.reqReady then { units with active := false }
  else units

end MulDiv

end GreenRio
