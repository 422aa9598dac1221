import GreenRio.Sizes

set_option autoImplicit false

namespace GreenRio

abbrev Pc := BitVec 39
abbrev Word := BitVec 64
abbrev ArchReg := Fin 32
/-- A physical register address; the register file has 48 of the 64 addresses. -/
abbrev PhyReg := Fin 64
abbrev RobIndex := Fin 16

/-- The `rob_op_*` fields: what the reorder buffer keeps of a decoded instruction. -/
structure RobOp where
  pc : Pc
  nextPc : Pc
  predictPc : Pc
  mret : Bool
  sret : Bool
  wfi : Bool
  half : Bool
  isFence : Bool
  fenceOp : BitVec 2
  aext : Bool
  immData : BitVec 32
  func3 : BitVec 3
  isAlu : Bool
  aluModify : Bool
  aluSelectA : BitVec 2
  aluSelectB : BitVec 2
  aluJump : Bool
  aluBranch : Bool
  isMd : Bool
  isLoad : Bool
  isStore : Bool
  lduOp : BitVec 4
  stuOp : BitVec 5
  aq : Bool
  rl : Bool
  csrAddress : BitVec 12
  csrRead : Bool
  csrWrite : Bool
  deriving DecidableEq

def RobOp.isCsr (op : RobOp) : Bool := op.csrRead || op.csrWrite

def RobOp.blank : RobOp where
  pc := 0
  nextPc := 0
  predictPc := 0
  mret := false
  sret := false
  wfi := false
  half := false
  isFence := false
  fenceOp := 0
  aext := false
  immData := 0
  func3 := 0
  isAlu := false
  aluModify := false
  aluSelectA := 0
  aluSelectB := 0
  aluJump := false
  aluBranch := false
  isMd := false
  isLoad := false
  isStore := false
  lduOp := 0
  stuOp := 0
  aq := false
  rl := false
  csrAddress := 0
  csrRead := false
  csrWrite := false

/-- What the decode stage hands over for one instruction. -/
structure Decoded extends RobOp where
  usesRs1 : Bool
  usesRs2 : Bool
  usesRd : Bool
  rs1Address : ArchReg
  rs2Address : ArchReg
  rdAddress : ArchReg
  exception : Bool
  ecause : BitVec 5
  etval : Word
  deriving DecidableEq

/-- Instructions that enter the reorder buffer already finished. -/
def Decoded.skips (instruction : Decoded) : Bool :=
  instruction.exception || instruction.mret || instruction.sret || instruction.wfi

/-- One entry of the fields written at dispatch. -/
structure RobEntry extends RobOp where
  prs1 : PhyReg
  prs2 : PhyReg
  prd : PhyReg
  lprd : PhyReg
  rd : ArchReg
  wakeup : Bool
  deriving DecidableEq

/-- A completion on one of the function-unit ports. -/
structure FuDone where
  done : Bool
  robIndex : RobIndex
  wrbAddr : PhyReg
  wrbData : Word
  exp : Bool
  ecause : BitVec 5
  deriving DecidableEq

def FuDone.quiet : FuDone := ⟨false, 0, 0, 0, false, 0⟩

structure AluDone extends FuDone where
  predictMiss : Bool
  branchTaken : Bool
  finalBranchPc : Pc
  deriving DecidableEq

structure LsuDone extends FuDone where
  etval : Word
  deriving DecidableEq

/-- A conditional write to one element of a register array. -/
def writeIf {ι α : Type} [DecidableEq ι] (enable : Bool) (array : ι → α) (index : ι) (value : α) :
    ι → α :=
  if enable then Function.update array index value else array

@[simp] theorem writeIf_false {ι α : Type} [DecidableEq ι] (array : ι → α) (index : ι) (value : α) :
    writeIf false array index value = array := rfl

@[simp] theorem writeIf_true {ι α : Type} [DecidableEq ι] (array : ι → α) (index : ι) (value : α) :
    writeIf true array index value = Function.update array index value := rfl

theorem writeIf_apply {ι α : Type} [DecidableEq ι] (enable : Bool) (array : ι → α) (index : ι)
    (value : α) (position : ι) :
    writeIf enable array index value position =
      if enable = true ∧ position = index then value else array position := by
  cases enable <;> simp [Function.update_apply]

end GreenRio
