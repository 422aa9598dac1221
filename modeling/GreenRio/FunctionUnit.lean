import GreenRio.Issue

set_option autoImplicit false

namespace GreenRio

namespace Alu

/-- `cmp_result`: bit 2 of the function code asks for an order, bit 1 for an unsigned one, and bit
0 negates. -/
def cmpResult (func3 : BitVec 3) (left right : Word) : Bool :=
  let isLess := if func3.getLsbD 1 then left.ult right else left.slt right
  let quasiResult := if func3.getLsbD 2 then isLess else left == right
  if func3.getLsbD 0 then !quasiResult else quasiResult

/-- The lower half of a word with its sign. -/
def half (value : Word) : Word := (value.setWidth 32).signExtend 64

def addSub (modifier : Bool) (left right : Word) : Word :=
  left + (if modifier then -right else right)

def shiftRight (modifier : Bool) (left right : Word) : Word :=
  let count := (right.setWidth 6).toNat
  if modifier then left.sshiftRight count else left >>> count

def shiftRightHalf (modifier : Bool) (left right : Word) : Word :=
  let count := (right.setWidth 5).toNat
  let low := left.setWidth 32
  (if modifier then low.sshiftRight count else low >>> count).signExtend 64

/-- `alu_result_o`. -/
def aluResult (select : BitVec 3) (isHalf modifier : Bool) (left right : Word) : Word :=
  match select with
  | 0b000 => if isHalf then half (addSub modifier left right) else addSub modifier left right
  | 0b001 => if isHalf then half (left <<< (right.setWidth 5).toNat) else left <<< (right.setWidth 6).toNat
  | 0b010 => (BitVec.ofBool (left.slt right)).setWidth 64
  | 0b011 => (BitVec.ofBool (left.ult right)).setWidth 64
  | 0b100 => left ^^^ right
  | 0b101 => if isHalf then shiftRightHalf modifier left right else shiftRight modifier left right
  | 0b110 => left ||| right
  | 0b111 => (if modifier then ~~~left else left) &&& right

section Operation

variable (op : RobOp) (rs1 rs2 : Word)

def opr1 : Word :=
  match op.aluSelectA with
  | 0b00 => rs1
  | 0b10 => op.pc.signExtend 64
  | _ => 0

def opr2 : Word :=
  match op.aluSelectB with
  | 0b00 => rs2
  | 0b01 => op.immData.signExtend 64
  | 0b10 => op.pc.signExtend 64
  | _ => 0

/-- The result of an operation; a branch or a jump always adds. -/
def result : Word :=
  aluResult (if op.aluBranch then 0 else op.func3) op.half op.aluModify (opr1 op rs1) (opr2 op rs2)

/-- `alu_final_next_pc`. -/
def finalNextPc : Pc :=
  if op.aluJump then (result op rs1 rs2).setWidth 39
  else if op.aluBranch && cmpResult op.func3 rs1 rs2 then (result op rs1 rs2).setWidth 39
  else op.nextPc

end Operation

/-- A return address whose upper bits repeat the top bit of `sign`. -/
def linkData (sign next : Pc) : Word := (if sign.msb then BitVec.allOnes 25 else 0#25) ++ next

/-- What an arithmetic unit answers for the operation in its stage. All of it is read under the
valid bit, which a flush takes away. -/
def done (stage : Stage) (sign : Pc) (flush : Bool) : AluDone :=
  let op := stage.issued.entry.toRobOp
  let rs1 := stage.issued.rs1Data
  let rs2 := stage.issued.rs2Data
  { done := stage.valid && !flush
    robIndex := stage.issued.robIndex
    wrbAddr := stage.issued.entry.prd
    wrbData := if op.aluJump then linkData sign op.nextPc else result op rs1 rs2
    exp := false
    ecause := 0
    predictMiss := finalNextPc op rs1 rs2 != op.predictPc
    branchTaken := cmpResult op.func3 rs1 rs2
    finalBranchPc := finalNextPc op rs1 rs2 }

end Alu

/-- What the CSR unit reads: the register it addresses and whether the mode may access it. -/
structure CsrAnswer where
  opData : Word
  readable : Bool
  writable : Bool

namespace CsrUnit

variable (stage : Stage) (answer : CsrAnswer)

/-- `illegal_csr`. -/
def illegal : Bool :=
  stage.valid &&
    ((stage.issued.entry.csrRead && !answer.readable) ||
      (stage.issued.entry.csrWrite && !answer.writable))

/-- `csr_wrdata_o`. -/
def wrData : Word :=
  let imm := stage.issued.entry.immData.setWidth 64
  let rs1 := stage.issued.rs1Data
  if illegal stage answer then answer.opData else
    match stage.issued.entry.func3 with
    | 0b001 => rs1
    | 0b010 => answer.opData ||| rs1
    | 0b011 => answer.opData &&& ~~~rs1
    | 0b101 => imm
    | 0b110 => answer.opData ||| imm
    | 0b111 => answer.opData &&& ~~~imm
    | _ => answer.opData

/-- The unit is combinational and, unlike the arithmetic ones, not stopped by a flush. -/
def done : FuDone where
  done := stage.valid
  robIndex := stage.issued.robIndex
  wrbAddr := stage.issued.entry.prd
  wrbData := answer.opData
  exp := illegal stage answer
  ecause := if illegal stage answer then 2 else 0

end CsrUnit

end GreenRio
